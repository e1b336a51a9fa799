import CampusQuery.Proofs.Json.Truncation
import CampusQuery.Proofs.Store.Footprint

/-!
Writes that fail midway. Main statement: the first bytes of the file of a dataset are no dataset, so
that a directory in which an addition failed opens as it would have before.
-/

namespace CampusQuery

open Store

/-! ### Bytes -/

namespace Dataset

variable {d : Dataset}

theorem partsOfRaw?_of_isBare {raw : RawJson} (h : raw.IsBare) : partsOfRaw? raw = none := by
  cases h <;> rfl

/-- The bytes of a dataset are read as a whole or not at all. -/
theorem decode?_extract (finite : d.IsFinite) {size : Nat} (short : size < d.encode.size) :
    decode? (d.encode.extract 0 size) = none := by
  rw [Option.eq_none_iff_forall_ne_some]
  intro e decoded
  obtain ⟨text, raw, id, kind, records, htext, hraw, hparts, -⟩ :=
    (decode?_eq_some_iff.1 decoded).parts
  obtain ⟨back, filled, cut⟩ := exists_append_of_extract short htext
  have bare := Json.isBare_of_cut_object (legible_toJson finite) filled cut hraw
  rw [partsOfRaw?_of_isBare bare] at hparts
  cases hparts

end Dataset

/-! ### Trees -/

namespace FileTree

variable {tree : FileTree} {dir : FilePath} {content : ByteArray} {size : Nat}
  {location : Location} {d : Dataset}

/-- What a write that fails leaves: the tree as it was, or the file with the first bytes. -/
inductive Torn (tree : FileTree) (path : FilePath) (content : ByteArray) : FileTree → Prop where
  | unmade : Torn tree path content tree
  | cut {place : Location} {size : Nat} (located : tree.locate path = .ok place)
      (file : tree.node? place ≠ some .directory) (short : size < content.size) :
      Torn tree path content (tree.setNode place (.file (content.extract 0 size)))

/-- Writes the first bytes and fails. -/
def tear (size : Nat) (reason : FileError) (path : FilePath) (content : ByteArray)
    (tree : FileTree) : Except FileError Unit × FileTree :=
  (.error reason, (tree.writeFile path (content.extract 0 size)).2)

theorem torn_tear (tree : FileTree) (path : FilePath) (reason : FileError)
    (short : size < content.size) :
    tree.Torn path content (tear size reason path content tree).2 := by
  rw [tear, writeFile]
  split
  · exact .unmade
  · next located =>
    split
    · exact .unmade
    · next file => exact .cut located file short

/-- The operations on a tree, with another one in place of the write. -/
abbrev writingBy (write : FilePath → ByteArray → FileTree → Except FileError Unit × FileTree) :
    Files (StateM FileTree) where
  readFile path := fun tree => (tree.readFile path, tree)
  writeFile path content := fun tree => write path content tree
  removeFile path := fun tree => tree.removeFile path
  pathExists path := fun tree => (tree.pathExists path, tree)
  createDirs path := fun tree => tree.createDirs path
  listDir path := fun tree => (tree.listDir path, tree)

/-- Nothing is found in a file with the first bytes of a dataset. -/
theorem held?_of_extract (finite : d.IsFinite) (short : size < d.encode.size)
    (located : tree.locate (joinPath dir (fileName d.id)) = .ok (fileName d.id :: location))
    (node : tree.node? (fileName d.id :: location) = some (.file (d.encode.extract 0 size))) :
    tree.held? dir location d.id = none := by
  have content : contentAt (joinPath dir (fileName d.id)) tree =
      .ok (d.encode.extract 0 size) := by
    change tree.readFile _ = _
    rw [readFile, located, ok_bind, node]
    rfl
  rw [held?, heldAt?, content]
  dsimp only
  rw [Dataset.decode?_extract finite short, Option.filter_none, ite_self]

/-- The first bytes of a dataset that is not found change nothing that is found. -/
theorem HasDir.held?_of_cut (h : tree.HasDir dir location) (plain : tree.PlainNames location)
    (finite : d.IsFinite) (short : size < d.encode.size)
    (located : tree.locate (joinPath dir (fileName d.id)) = .ok (fileName d.id :: location))
    (file : tree.node? (fileName d.id :: location) ≠ some .directory)
    (free : tree.held? dir location d.id = none) (id : String) :
    (tree.setNode (fileName d.id :: location) (.file (d.encode.extract 0 size))).held? dir location
      id = tree.held? dir location id := by
  have keeps := keepsDirs_setNode (.file (d.encode.extract 0 size)) file
  by_cases same : id = d.id
  · subst same
    rw [free]
    apply held?_of_extract finite short (keeps.locate_eq_ok located)
    rw [node?_setNode, if_pos rfl]
  · apply h.held?_congr (keeps.hasDir h) plain
    rw [node?_setNode, if_neg]
    intro places
    exact same (fileName_injective (List.cons.inj places).1)

end FileTree

/-! ### Stores -/

namespace Store

section

variable {σ : Type} [Files (StateM σ)] {store : Store} {dir : FilePath} {d : Dataset}
  {state after : σ} {e : FileError}

theorem add_of_writeFile_error (directory : store.dir = some dir) (valid : isValidId d.id = true)
    (free : store.lookup d.id = none)
    (failed : (Files.writeFile (joinPath dir (fileName d.id)) d.encode : StateM σ _) state =
      (.error e, after)) :
    (store.add d : StateM σ _) state = ((.error (.io e), store), after) := by
  have absent : store.datasets.contains d.id = false := by
    rw [Dictionary.contains, ← lookup, free]
    rfl
  apply add_of_saveFile_error valid absent
  rw [saveFile, directory]
  exact failed

end

/-- The directory of the store would open as a store of its datasets, up to the signs of zeros. -/
structure ReopensAs (store found : Store) (dir : FilePath) (tree made : FileTree) : Prop where
  directory : store.dir = some dir
  opened : (openDir dir : StateM FileTree _) tree = (.ok found, made)
  lookup : ∀ id, Option.Rel Dataset.Alike (store.lookup id) (found.lookup id)
  named : ∀ names, made.listDir dir = .ok names → ∀ name ∈ names, slash ∉ name

section

variable {store found : Store} {dir : FilePath} {tree made torn : FileTree} {location : Location}
  {d : Dataset}

/-- So it is with a store that came about by changes. -/
theorem InStep.exists_reopensAs {loaded : String → Prop} (h : InStep loaded store tree dir location)
    (survives : ∀ id, ∀ d ∈ store.lookup id, d.SurvivesText) :
    ∃ found, store.ReopensAs found dir tree tree := by
  obtain ⟨found, opened, -, held⟩ := h.hasDir.exists_openDir_held
  refine ⟨found, h.directory, opened, fun id => ?_, h.hasDir.plainNames_iff.1 h.plain⟩
  rw [held]
  exact h.held id (.inr (survives id))

theorem exists_hasDir_of_openDir
    (opened : (openDir dir : StateM FileTree _) tree = (.ok found, made)) :
    ∃ location, made.HasDir dir location := by
  obtain ⟨names, listed, -, hnames⟩ := exists_finds_of_openDir readsOnly_fileTree opened
  rw [run_listDir] at hnames
  obtain ⟨hlist, rfl⟩ := Prod.mk.inj hnames
  exact FileTree.exists_hasDir hlist

theorem ReopensAs.openDir_torn (h : store.ReopensAs found dir tree made) (finite : d.IsFinite)
    (hslash : '/' ∉ d.id.toList) (free : store.lookup d.id = none)
    (written : tree.Torn (joinPath dir (fileName d.id)) d.encode torn) :
    ∃ left, (openDir dir : StateM FileTree _) torn = (.ok found, left) := by
  cases written with
  | unmade => exact ⟨made, h.opened⟩
  | @cut place size located file short =>
    obtain ⟨_, there⟩ := exists_hasDir_of_openDir h.opened
    obtain ⟨location, hasDir⟩ := FileTree.exists_hasDir_of_locate there.ne_empty
      (slash_notMem_fileName hslash) located
    obtain rfl := hasDir.eq_of_locate_joinPath (slash_notMem_fileName hslash)
      (fileName_isName d.id) located
    -- The directory was there, so that its opening left the tree.
    obtain ⟨before, hbefore, hdir, hheld⟩ := hasDir.exists_openDir_held
    obtain ⟨same, rfl⟩ := Prod.mk.inj (hbefore.symm.trans h.opened)
    obtain rfl := Except.ok.inj same
    have plain := hasDir.plainNames_iff.2 h.named
    have unheld : tree.held? dir location d.id = none := by
      have alike := h.lookup d.id
      rw [free, hheld] at alike
      cases hd : tree.held? dir location d.id with
      | none => rfl
      | some e =>
        rw [hd] at alike
        cases alike
    have keeps := FileTree.keepsDirs_setNode (.file (d.encode.extract 0 size)) file
    obtain ⟨again, hagain, hdir', hheld'⟩ := (keeps.hasDir hasDir).exists_openDir_held
    have unchanged : again = before := by
      apply Store.ext_lookup (hdir'.trans hdir.symm)
      intro id
      rw [hheld, hheld', hasDir.held?_of_cut plain finite short located file unheld]
    rw [unchanged] at hagain
    exact ⟨_, hagain⟩

/-- The first bytes of a dataset's file are refused by the reader. So if the write of an addition
fails after them, the store stays and its directory opens as it would have before: the new id has no
dataset, and every other id has what it had. -/
theorem torn_write_unseen (finite : d.IsFinite) :
    (∀ size < d.encode.size, ∀ path (disk : FileTree),
      contentAt path disk = .ok (d.encode.extract 0 size) →
        (loadFile path : StateM FileTree _) disk = (none, disk)) ∧
    ∀ (write : FilePath → ByteArray → FileTree → Except FileError Unit × FileTree)
      (store found : Store) (dir : FilePath) (tree made torn : FileTree) (reason : FileError),
      store.ReopensAs found dir tree made → isValidId d.id = true → '/' ∉ d.id.toList →
        store.lookup d.id = none →
        write (joinPath dir (fileName d.id)) d.encode tree = (.error reason, torn) →
        tree.Torn (joinPath dir (fileName d.id)) d.encode torn →
      @Store.add (StateM FileTree) _ (FileTree.writingBy write) store d tree =
        ((.error (.io reason), store), torn) ∧
      ∃ left, (openDir dir : StateM FileTree _) torn = (.ok found, left) := by
  constructor
  · intro size short path disk content
    rw [run_loadFile readsOnly_fileTree, content]
    dsimp only
    rw [Dataset.decode?_extract finite short]
  · intro write store found dir tree made torn reason reopens valid hslash free failed written
    have refused := @add_of_writeFile_error FileTree (FileTree.writingBy write) store dir d tree torn
      reason reopens.directory valid free failed
    exact ⟨refused, reopens.openDir_torn finite hslash free written⟩

end

section Sample

theorem noRooms_survivesText (id : String) : (noRooms id).SurvivesText := nofun

theorem sampleStore_reopens :
    ∃ found, sampleStore.ReopensAs found (utf8 "/data") sampleFiles sampleFiles := by
  have empty : (FileTree.ofWorkingDir [utf8 "data"]).listDir (utf8 "/data") = .ok [] := rfl
  obtain ⟨location, h⟩ := InStep.of_openDir openDir_empty (by simp [empty])
  have ordinary : ∀ change ∈ [Change.add (noRooms "a")], change.Ordinary := by
    simp [noRooms_ordinary]
  have h := h.run ordinary
  rw [changes_sample] at h
  apply h.exists_reopensAs
  intro id d hd
  have found : (Dictionary.empty.insert "a" (noRooms "a")).find? id = some d := hd
  rw [Dictionary.find?_insert, Dictionary.find?_empty, Option.ite_none_right_eq_some] at found
  obtain rfl := Option.some.inj found.2
  exact noRooms_survivesText "a"

/-- The disk is full in the middle of a character. -/
theorem torn_write_unseen_sample : ∃ found torn left,
    (openDir (utf8 "/data") : StateM FileTree _) sampleFiles = (.ok found, sampleFiles) ∧
    @Store.add (StateM FileTree) _ (FileTree.writingBy (FileTree.tear 8 (.other "no space left")))
      sampleStore (noRooms "é") sampleFiles = ((.error (.io (.other "no space left")), sampleStore), torn) ∧
    torn.node? [utf8 "é.json", utf8 "data"] = some (.file ((noRooms "é").encode.extract 0 8)) ∧
    (openDir (utf8 "/data") : StateM FileTree _) torn = (.ok found, left) := by
  obtain ⟨found, reopens⟩ := sampleStore_reopens
  have short : 8 < (noRooms "é").encode.size := by decide +kernel
  obtain ⟨refused, left, hleft⟩ := (torn_write_unseen (noRooms_survivesText "é").isFinite).2
    (FileTree.tear 8 (.other "no space left")) sampleStore found (utf8 "/data") sampleFiles sampleFiles _
    (.other "no space left") reopens (by decide) (by decide) rfl rfl
    (FileTree.torn_tear _ _ (.other "no space left") short)
  exact ⟨found, _, left, reopens.opened, refused, rfl, hleft⟩

end Sample

end Store

end CampusQuery
