import CampusQuery.Proofs.Store.Directory
import CampusQuery.Proofs.Text.Bytes
import CampusQuery.Store.Basic

/-!
Steps of a store on a tree: the names of its files, the operations of the file system as functions,
and the two operations of a store on the file of an id.
-/

namespace CampusQuery

namespace Store

variable {id other : String}

theorem fileName_eq (id : String) : fileName id = utf8 id ++ utf8 ".json" :=
  utf8_append id ".json"

theorem fileName_injective (h : fileName id = fileName other) : id = other := by
  rw [fileName_eq, fileName_eq] at h
  exact utf8_injective (List.append_cancel_right h)

theorem stem?_eq_some_iff {name stem : FileName} :
    stem? name = some stem ↔ stem ≠ [] ∧ name = stem ++ utf8 ".json" := by
  unfold stem?
  dsimp only
  constructor
  · intro h
    split at h
    · next hsuffix =>
      obtain ⟨front, rfl⟩ := List.isSuffixOf_iff_suffix.1 hsuffix.1
      have longer := hsuffix.2
      rw [List.length_append] at longer h
      rw [Nat.add_sub_cancel, List.take_left] at h
      obtain rfl := Option.some.inj h
      refine ⟨?_, rfl⟩
      rintro rfl
      simp at longer
    · contradiction
  · rintro ⟨filled, rfl⟩
    have size : 0 < stem.length := List.length_pos_iff.2 filled
    rw [if_pos ⟨List.isSuffixOf_iff_suffix.2 (List.suffix_append _ _), by
      rw [List.length_append]; omega⟩]
    rw [List.length_append, Nat.add_sub_cancel, List.take_left]

theorem utf8_eq_nil_iff : utf8 id = [] ↔ id = "" := by
  constructor
  · exact fun h => utf8_injective h
  · rintro rfl
    rfl

theorem stem?_fileName (hid : id ≠ "") : stem? (fileName id) = some (utf8 id) :=
  stem?_eq_some_iff.2 ⟨fun h => hid (utf8_eq_nil_iff.1 h), fileName_eq id⟩

theorem fileName_isName (id : String) :
    fileName id ≠ [] ∧ fileName id ≠ [dot] ∧ fileName id ≠ [dot, dot] := by
  have size : 5 ≤ (fileName id).length := by
    rw [fileName_eq, List.length_append]
    exact Nat.le_add_left 5 _
  refine ⟨?_, ?_, ?_⟩ <;>
  · intro h
    rw [h] at size
    contradiction

theorem slash_mem_fileName_iff : slash ∈ fileName id ↔ '/' ∈ id.toList := by
  rw [fileName_eq, List.mem_append]
  constructor
  · rintro (hmem | hmem)
    · exact mem_toList_of_mem_utf8 hmem rfl (by decide)
    · exact absurd hmem (by decide)
  · intro hmem
    rw [utf8_eq, List.mem_flatMap]
    exact .inl ⟨'/', hmem, by decide⟩

theorem slash_notMem_fileName (h : '/' ∉ id.toList) : slash ∉ fileName id :=
  mt slash_mem_fileName_iff.1 h

end Store

/-! ### Steps on a tree -/

section Run

theorem run_bind {σ α β : Type} (state : σ) (x : StateM σ α) (f : α → StateM σ β) :
    (x >>= f) state = f (x state).1 (x state).2 := rfl

theorem exists_of_run_bind {σ α β : Type} {state after : σ} {x : StateM σ α} {f : α → StateM σ β}
    {b : β} (h : (x >>= f) state = (b, after)) :
    ∃ a between, x state = (a, between) ∧ f a between = (b, after) :=
  ⟨_, _, rfl, h⟩

theorem run_pure {σ α : Type} (state : σ) (a : α) : (pure a : StateM σ α) state = (a, state) := rfl

variable (tree : FileTree)

theorem run_writeFile (path : FilePath) (content : ByteArray) :
    (Files.writeFile path content : StateM FileTree _) tree = tree.writeFile path content := rfl

theorem run_removeFile (path : FilePath) :
    (Files.removeFile path : StateM FileTree _) tree = tree.removeFile path := rfl

theorem run_pathExists (path : FilePath) :
    (Files.pathExists path : StateM FileTree _) tree = (tree.pathExists path, tree) := rfl

theorem run_createDirs (path : FilePath) :
    (Files.createDirs path : StateM FileTree _) tree = tree.createDirs path := rfl

theorem run_listDir (path : FilePath) :
    (Files.listDir path : StateM FileTree _) tree = (tree.listDir path, tree) := rfl

end Run

namespace Store

variable {store : Store} {tree : FileTree} {dir : FilePath} {id : String} {place : Location} {d : Dataset}

theorem saveFile_of_locate (hdir : store.dir = some dir)
    (located : tree.locate (joinPath dir (fileName d.id)) = .ok place)
    (hfile : tree.node? place ≠ some .directory) :
    (store.saveFile d : StateM FileTree _) tree =
      (.ok (), tree.setNode place (.file d.encode)) := by
  rw [saveFile, hdir]
  dsimp only
  rw [run_writeFile, FileTree.writeFile, located]
  dsimp only
  rw [if_neg hfile]

theorem deleteFile_of_locate {content : ByteArray} (hdir : store.dir = some dir)
    (located : tree.locate (joinPath dir (fileName id)) = .ok place)
    (hfile : tree.node? place = some (.file content)) :
    (store.deleteFile id : StateM FileTree _) tree = (.ok (), tree.dropNode place) := by
  have there : tree.pathExists (joinPath dir (fileName id)) = true := by
    rw [FileTree.pathExists, located]
    dsimp only
    rw [hfile]
    rfl
  rw [deleteFile, hdir]
  dsimp only
  rw [run_bind, run_pathExists, there]
  dsimp only
  rw [if_pos rfl, run_removeFile, FileTree.removeFile, located]
  dsimp only
  rw [hfile]

end Store

end CampusQuery
