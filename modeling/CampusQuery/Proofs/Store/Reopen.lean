import CampusQuery.Proofs.Store.Loading

/-!
Stores on a directory of a tree. Main statements: a directory with the files of some datasets
opens as a store of these datasets, up to the signs of zeros, and the file operations of a store
keep the directory in step with its datasets.
-/

namespace CampusQuery

open Store

namespace FileTree

section Held

variable {tree : FileTree} {dir : FilePath} {id : String} {location : Location}

/-- What an opening finds for an id. -/
def held? (tree : FileTree) (dir : FilePath) (location : Location) (id : String) : Option Dataset :=
  if (tree.node? (fileName id :: location)).isSome then heldAt? dir id tree else none

theorem HasDir.exists_openDir_held (h : tree.HasDir dir location) : ∃ store,
    (openDir dir : StateM FileTree _) tree = (.ok store, tree) ∧ store.dir = some dir ∧
      ∀ id, store.lookup id = tree.held? dir location id := by
  obtain ⟨names, store, hstore, loads, hmem⟩ := exists_openDir h
  refine ⟨store, hstore, loads.directory, fun id => ?_⟩
  rw [loads.lookup, held?]
  simp only [hmem]

theorem held?_of_node?_none (h : tree.node? (fileName id :: location) = none) :
    tree.held? dir location id = none := by
  rw [held?, h]
  rfl

/-- A dataset that was written is found again. -/
theorem exists_held?_of_encode {d : Dataset} (built : d.Built) (survives : d.SurvivesText)
    (located : tree.locate (joinPath dir (fileName d.id)) = .ok (fileName d.id :: location))
    (node : tree.node? (fileName d.id :: location) = some (.file d.encode)) :
    ∃ e, tree.held? dir location d.id = some e ∧ d.Alike e := by
  obtain ⟨e, decoded, alike⟩ := Dataset.exists_decode?_encode built survives
  refine ⟨e, ?_, alike⟩
  have content : contentAt (joinPath dir (fileName d.id)) tree = .ok d.encode := by
    change tree.readFile _ = _
    rw [readFile, located, ok_bind, node]
    rfl
  rw [held?, node, Option.isSome_some, if_pos rfl, heldAt?_eq_some_iff]
  exact ⟨d.encode, content, Dataset.decode?_eq_some_iff.1 decoded, alike.id.symm⟩

end Held

/-- The directory has the file of each dataset under its id, and nothing else. -/
structure Holds (tree : FileTree) (dir : FilePath) (location : Location) (datasets : Datasets) :
    Prop where
  hasDir : tree.HasDir dir location
  dataset : ∀ id d, datasets id = some d → d.id = id ∧ d.Built ∧ d.SurvivesText
  file : ∀ id d, datasets id = some d →
    tree.locate (joinPath dir (fileName id)) = .ok (fileName id :: location) ∧
      tree.node? (fileName id :: location) = some (.file d.encode)
  only : ∀ name, (tree.node? (name :: location)).isSome →
    ∃ id, name = fileName id ∧ (datasets id).isSome

theorem exists_holds_empty {tree : FileTree} {dir : FilePath} (h : tree.listDir dir = .ok []) :
    ∃ location, tree.Holds dir location fun _ => none := by
  obtain ⟨location, hasDir⟩ := exists_hasDir h
  obtain ⟨names, hnames, hmem⟩ := hasDir.exists_listDir
  cases h.symm.trans hnames
  exact ⟨location, hasDir, by simp, by simp, fun name hname => by simpa using (hmem name).2 hname⟩

namespace Holds

variable {tree tree' : FileTree} {dir : FilePath} {id : String} {location : Location}
  {datasets : Datasets} {d : Dataset}

theorem node?_eq_none (h : tree.Holds dir location datasets) (free : datasets id = none) :
    tree.node? (fileName id :: location) = none := by
  rw [← Option.not_isSome_iff_eq_none]
  intro there
  obtain ⟨other, hother, held⟩ := h.only _ there
  rw [← fileName_injective hother, free] at held
  contradiction

/-- The directory opens as a store of its datasets. -/
theorem openDir_eq (h : tree.Holds dir location datasets) : ∃ store,
    (openDir dir : StateM FileTree _) tree = (.ok store, tree) ∧ store.dir = some dir ∧
      ∀ id, Option.Rel Dataset.Alike (datasets id) (store.lookup id) := by
  obtain ⟨store, hstore, hdir, hheld⟩ := h.hasDir.exists_openDir_held
  refine ⟨store, hstore, hdir, fun id => ?_⟩
  rw [hheld]
  cases hd : datasets id with
  | none =>
    rw [held?_of_node?_none (h.node?_eq_none hd)]
    exact .none
  | some d =>
    obtain ⟨rfl, built, survives⟩ := h.dataset id d hd
    obtain ⟨located, node⟩ := h.file d.id d hd
    obtain ⟨e, held, alike⟩ := exists_held?_of_encode built survives located node
    rw [held]
    exact .some alike

/-- A change in the place of one id leaves the other datasets and their files. -/
theorem change (h : tree.Holds dir location datasets) (keeps : tree.KeepsDirs tree')
    {entry : Option Dataset}
    (frame : ∀ place, place ≠ fileName id :: location → tree'.node? place = tree.node? place)
    (there : tree'.node? (fileName id :: location) = entry.map fun d => .file d.encode)
    (checked : ∀ d, entry = some d → (d.id = id ∧ d.Built ∧ d.SurvivesText) ∧
      tree.locate (joinPath dir (fileName id)) = .ok (fileName id :: location)) :
    tree'.Holds dir location fun other => if id = other then entry else datasets other where
  hasDir := keeps.hasDir h.hasDir
  dataset other e he := by
    split at he
    · next hother => exact hother ▸ (checked e he).1
    · exact h.dataset other e he
  file other e he := by
    split at he
    · next hother =>
      subst hother
      refine ⟨keeps.locate_eq_ok (checked e he).2, ?_⟩
      rw [there, he, Option.map_some]
    · next hother =>
      obtain ⟨hlocate, hnode⟩ := h.file other e he
      refine ⟨keeps.locate_eq_ok hlocate, ?_⟩
      rw [frame, hnode]
      intro hplaces
      exact hother (fileName_injective (List.cons.inj hplaces).1).symm
  only name hname := by
    by_cases hplaces : name :: location = fileName id :: location
    · rw [hplaces, there, Option.isSome_map] at hname
      exact ⟨id, (List.cons.inj hplaces).1, by rwa [if_pos rfl]⟩
    · rw [frame _ hplaces] at hname
      obtain ⟨other, rfl, hother⟩ := h.only name hname
      refine ⟨other, rfl, ?_⟩
      rwa [if_neg]
      rintro rfl
      exact hplaces rfl

theorem setNode (h : tree.Holds dir location datasets) (built : d.Built) (survives : d.SurvivesText)
    (located : tree.locate (joinPath dir (fileName d.id)) = .ok (fileName d.id :: location))
    (hfile : tree.node? (fileName d.id :: location) ≠ some .directory) :
    (tree.setNode (fileName d.id :: location) (.file d.encode)).Holds dir location
      fun id => if d.id = id then some d else datasets id := by
  apply h.change (keepsDirs_setNode (.file d.encode) hfile)
  · intro place hplace
    rw [node?_setNode, if_neg hplace]
  · rw [node?_setNode, if_pos rfl, Option.map_some]
  · rintro _ ⟨⟩
    exact ⟨⟨rfl, built, survives⟩, located⟩

theorem dropNode (h : tree.Holds dir location datasets) (hd : datasets id = some d) :
    (tree.dropNode (fileName id :: location)).Holds dir location
      fun other => if id = other then none else datasets other := by
  have hfile : tree.node? (fileName id :: location) ≠ some .directory := by
    rw [(h.file id d hd).2]
    simp
  apply h.change (keepsDirs_dropNode hfile)
  · intro place hplace
    rw [node?_dropNode, if_neg hplace]
  · rw [node?_dropNode, if_pos rfl, Option.map_none]
  · rintro _ ⟨⟩

theorem of_saveFile (h : tree.Holds dir location datasets) (built : d.Built)
    (survives : d.SurvivesText) (hslash : '/' ∉ d.id.toList) {store : Store}
    (hdir : store.dir = some dir)
    (saved : (store.saveFile d : StateM FileTree _) tree = (.ok (), tree')) :
    tree'.Holds dir location fun id => if d.id = id then some d else datasets id := by
  rw [saveFile, hdir] at saved
  dsimp only at saved
  rw [run_writeFile] at saved
  obtain ⟨place, located, hfile, rfl⟩ := exists_setNode_of_writeFile saved
  obtain rfl :=
    h.hasDir.eq_of_locate_joinPath (slash_notMem_fileName hslash) (fileName_isName d.id) located
  exact h.setNode built survives located hfile

/-- A file is made for a new id whose path is within the limits. -/
theorem exists_saveFile_eq_ok (h : tree.Holds dir location datasets) (free : datasets d.id = none)
    (hslash : '/' ∉ d.id.toList) (hpath : checkPath (joinPath dir (fileName d.id)) = .ok ())
    (hsize : (fileName d.id).length ≤ maxNameSize) {store : Store}
    (hdir : store.dir = some dir) :
    ∃ after, (store.saveFile d : StateM FileTree _) tree = (.ok (), after) := by
  have located : tree.locate (joinPath dir (fileName d.id)) = .ok (fileName d.id :: location) := by
    rw [h.hasDir.locate_joinPath (slash_notMem_fileName hslash) (fileName_isName d.id), hpath,
      ok_bind, if_neg (Nat.not_lt.2 hsize)]
  refine ⟨_, saveFile_of_locate hdir located ?_⟩
  rw [h.node?_eq_none free]
  simp

/-- Of a dataset that is there the file is removed. -/
theorem deleteFile_eq (h : tree.Holds dir location datasets) (hd : datasets id = some d)
    {store : Store} (hdir : store.dir = some dir) :
    (store.deleteFile id : StateM FileTree _) tree =
      (.ok (), tree.dropNode (fileName id :: location)) := by
  obtain ⟨located, hnode⟩ := h.file id d hd
  exact deleteFile_of_locate hdir located hnode

end Holds

end FileTree

end CampusQuery
