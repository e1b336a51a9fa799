import CampusQuery.Proofs.Store.Session

/-!
The file of a change. Main statement: after any changes under ids without a slash, a further one
touches the file of its id alone, and the next opening shows that change and no other.
-/

namespace CampusQuery

namespace Store

/-- A change of a store. -/
inductive Change where
  | add (dataset : Dataset)
  | remove (id : String)

namespace Change

def id : Change → String
  | .add dataset => dataset.id
  | .remove id => id

/-- The dataset of the id after the change. -/
def entry? : Change → Option Dataset
  | .add dataset => some dataset
  | .remove _ => none

/-- The id is the name of a file in one directory, and an added dataset was checked. -/
structure Ordinary (change : Change) : Prop where
  slash : '/' ∉ change.id.toList
  built : ∀ d ∈ change.entry?, d.Built

end Change

section

variable {m : Type → Type} [Monad m] [Files m]

/-- Whether the change was made, and the store that it left. -/
def change (store : Store) : Change → m (Except StoreError Unit × Store)
  | .add dataset => do
    let (result, next) ← store.add dataset
    return (result.map fun _ => (), next)
  | .remove id => do
    let (result, next) ← store.remove id
    return (result.map fun _ => (), next)

/-- Makes changes in turn, each on the store that the one before it left. -/
def changes (store : Store) : List Change → m Store
  | [] => return store
  | first :: rest => do
    let (_, next) ← store.change first
    next.changes rest

end

end Store

open Store

namespace FileTree

variable {tree after : FileTree} {path : FilePath} {e : FileError}

theorem eq_of_writeFile_error {content : ByteArray}
    (h : tree.writeFile path content = (.error e, after)) : after = tree := by
  rw [writeFile] at h
  split at h
  · exact (Prod.mk.inj h).2.symm
  · split at h
    · exact (Prod.mk.inj h).2.symm
    · cases h

theorem eq_of_removeFile_error (h : tree.removeFile path = (.error e, after)) : after = tree := by
  rw [removeFile] at h
  split at h
  · exact (Prod.mk.inj h).2.symm
  · split at h
    · cases h
    · exact (Prod.mk.inj h).2.symm
    · exact (Prod.mk.inj h).2.symm

/-- Names of files have no slash. -/
def PlainNames (tree : FileTree) (location : Location) : Prop :=
  ∀ name, (tree.node? (name :: location)).isSome → slash ∉ name

variable {dir : FilePath} {id : String} {location : Location}

theorem HasDir.locate_fileName (h : tree.HasDir dir location) (h' : after.HasDir dir location)
    (hslash : '/' ∉ id.toList) :
    after.locate (joinPath dir (fileName id)) = tree.locate (joinPath dir (fileName id)) := by
  rw [h.locate_joinPath (slash_notMem_fileName hslash) (fileName_isName id),
    h'.locate_joinPath (slash_notMem_fileName hslash) (fileName_isName id)]

/-- The path of an id without a slash leads to its place in the directory or nowhere. -/
theorem HasDir.locate_cases (h : tree.HasDir dir location) (hslash : '/' ∉ id.toList) :
    tree.locate (joinPath dir (fileName id)) = .ok (fileName id :: location) ∨
      ∃ e, tree.locate (joinPath dir (fileName id)) = .error e := by
  cases hplace : tree.locate (joinPath dir (fileName id)) with
  | error e => exact .inr ⟨e, rfl⟩
  | ok place =>
    obtain rfl :=
      h.eq_of_locate_joinPath (slash_notMem_fileName hslash) (fileName_isName id) hplace
    exact .inl rfl

theorem PlainNames.slash_notMem (plain : tree.PlainNames location)
    (there : (tree.node? (fileName id :: location)).isSome) : '/' ∉ id.toList :=
  fun hmem => plain _ there (slash_mem_fileName_iff.2 hmem)

/-- The names are those that a listing of the directory has. -/
theorem HasDir.plainNames_iff (h : tree.HasDir dir location) : tree.PlainNames location ↔
    ∀ names, tree.listDir dir = .ok names → ∀ name ∈ names, slash ∉ name := by
  obtain ⟨listed, hlisted, hmem⟩ := h.exists_listDir
  constructor
  · intro plain names hnames name hname
    obtain rfl := Except.ok.inj (hlisted.symm.trans hnames)
    exact plain name ((hmem name).1 hname)
  · intro named name hname
    exact named listed hlisted name ((hmem name).2 hname)

/-- What is found for an id depends on the node at its place alone. -/
theorem HasDir.held?_congr (h : tree.HasDir dir location) (h' : after.HasDir dir location)
    (plain : tree.PlainNames location)
    (node : after.node? (fileName id :: location) = tree.node? (fileName id :: location)) :
    after.held? dir location id = tree.held? dir location id := by
  unfold held?
  rw [node]
  split
  · next there =>
    have hslash := plain.slash_notMem there
    have content : contentAt (joinPath dir (fileName id)) after =
        contentAt (joinPath dir (fileName id)) tree := by
      change after.readFile _ = tree.readFile _
      rw [readFile, readFile, h.locate_fileName h' hslash]
      rcases h.locate_cases hslash with located | ⟨e, failed⟩
      · rw [located, ok_bind, ok_bind, node]
      · rw [failed, error_bind, error_bind]
    rw [heldAt?, heldAt?, content]
  · rfl

theorem held?_eq_some_iff {d : Dataset} : tree.held? dir location id = some d ↔
    (tree.node? (fileName id :: location)).isSome ∧ heldAt? dir id tree = some d := by
  rw [held?, Option.ite_none_right_eq_some]

/-- What is found for an id is in a file at its place. -/
theorem HasDir.exists_file_of_held? (h : tree.HasDir dir location)
    (plain : tree.PlainNames location) {d : Dataset}
    (held : tree.held? dir location id = some d) : ∃ content,
      tree.locate (joinPath dir (fileName id)) = .ok (fileName id :: location) ∧
        tree.node? (fileName id :: location) = some (.file content) := by
  obtain ⟨there, held⟩ := held?_eq_some_iff.1 held
  have hslash := plain.slash_notMem there
  obtain ⟨content, hcontent, -⟩ := heldAt?_eq_some_iff.1 held
  change tree.readFile _ = _ at hcontent
  rw [readFile, bind_eq_ok] at hcontent
  obtain ⟨place, hplace, hnode⟩ := hcontent
  obtain rfl :=
    h.eq_of_locate_joinPath (slash_notMem_fileName hslash) (fileName_isName id) hplace
  split at hnode
  · next bytes hbytes => exact ⟨bytes, hplace, hbytes⟩
  · contradiction
  · contradiction

end FileTree

namespace Store

section Steps

variable {store : Store} {tree after : FileTree} {d : Dataset} {id : String} {e : FileError}

theorem eq_of_saveFile_error
    (h : (store.saveFile d : StateM FileTree _) tree = (.error e, after)) : after = tree := by
  rw [saveFile] at h
  cases hdir : store.dir with
  | none =>
    rw [hdir] at h
    cases h
  | some dir =>
    rw [hdir] at h
    exact FileTree.eq_of_writeFile_error h

theorem eq_of_deleteFile_error
    (h : (store.deleteFile id : StateM FileTree _) tree = (.error e, after)) : after = tree := by
  rw [deleteFile] at h
  cases hdir : store.dir with
  | none =>
    rw [hdir] at h
    cases h
  | some dir =>
    rw [hdir] at h
    dsimp only at h
    rw [run_bind, run_pathExists] at h
    dsimp only at h
    split at h
    · exact FileTree.eq_of_removeFile_error h
    · cases h

theorem run_change_add {next : Store} {result : Except StoreError (List String)}
    (h : (store.add d : StateM FileTree _) tree = ((result, next), after)) :
    (store.change (.add d) : StateM FileTree _) tree = ((result.map fun _ => (), next), after) := by
  rw [change, run_bind, h]
  rfl

theorem run_change_remove {next : Store} {result : Except StoreError String}
    (h : (store.remove id : StateM FileTree _) tree = ((result, next), after)) :
    (store.change (.remove id) : StateM FileTree _) tree =
      ((result.map fun _ => (), next), after) := by
  rw [change, run_bind, h]
  rfl

/-- An addition goes through when the path of the file leads to no directory. -/
theorem change_add_of_locate {dir : FilePath} {place : Location}
    (hdir : store.dir = some dir) (valid : isValidId d.id = true)
    (free : store.datasets.contains d.id = false)
    (located : tree.locate (joinPath dir (fileName d.id)) = .ok place)
    (hfile : tree.node? place ≠ some .directory) :
    (store.change (.add d) : StateM FileTree _) tree =
      ((.ok (), { store with datasets := store.datasets.insert d.id d }),
        tree.setNode place (.file d.encode)) :=
  run_change_add (add_of_saveFile valid free (saveFile_of_locate hdir located hfile))

end Steps

/-- A change that is refused leaves the store and the files. -/
theorem eq_of_change_error {store next : Store} {tree after : FileTree} {change : Change}
    {e : StoreError}
    (h : (store.change change : StateM FileTree _) tree = ((.error e, next), after)) :
    next = store ∧ after = tree := by
  cases change with
  | add d =>
    rcases add_cases store d tree with
      ⟨other, refused⟩ | ⟨other, written, failed, refused⟩ | ⟨-, written, -, added⟩
    · cases h.symm.trans (run_change_add refused)
      exact ⟨rfl, rfl⟩
    · obtain rfl := eq_of_saveFile_error failed
      cases h.symm.trans (run_change_add refused)
      exact ⟨rfl, rfl⟩
    · cases h.symm.trans (run_change_add added)
  | remove id =>
    rcases remove_cases store id tree with
      ⟨other, refused⟩ | ⟨other, left, failed, refused⟩ | ⟨-, left, -, removed⟩
    · cases h.symm.trans (run_change_remove refused)
      exact ⟨rfl, rfl⟩
    · obtain rfl := eq_of_deleteFile_error failed
      cases h.symm.trans (run_change_remove refused)
      exact ⟨rfl, rfl⟩
    · cases h.symm.trans (run_change_remove removed)

/-- The datasets of the store have their files, and an opening of the directory would find the same
ones, up to the signs of zeros: under ids whose files are as they were loaded, and elsewhere of
numbers that survive their text. -/
structure InStep (loaded : String → Prop) (store : Store) (tree : FileTree) (dir : FilePath)
    (location : Location) : Prop where
  directory : store.dir = some dir
  hasDir : tree.HasDir dir location
  plain : tree.PlainNames location
  file : ∀ id, (store.lookup id).isSome → ∃ content,
    tree.locate (joinPath dir (fileName id)) = .ok (fileName id :: location) ∧
      tree.node? (fileName id :: location) = some (.file content)
  held : ∀ id, loaded id ∨ (∀ d ∈ store.lookup id, d.SurvivesText) →
    Option.Rel Dataset.Alike (store.lookup id) (tree.held? dir location id)

/-- What a change did to the files and to the datasets. -/
structure Touches (change : Change) (location : Location) (store next : Store)
    (tree after : FileTree) : Prop where
  keeps : tree.KeepsDirs after
  /-- No other node is made, written or removed. -/
  frame : ∀ place, place ≠ fileName change.id :: location → after.node? place = tree.node? place
  node : after.node? (fileName change.id :: location) =
    change.entry?.map fun dataset => .file dataset.encode
  directory : next.dir = store.dir
  lookup : ∀ id, next.lookup id = if change.id = id then change.entry? else store.lookup id

/-- Files of other ids stay. -/
theorem Touches.node?_eq {change : Change} {location : Location} {store next : Store}
    {tree after : FileTree} {id : String} (h : Touches change location store next tree after)
    (hid : id ≠ change.id) :
    after.node? (fileName id :: location) = tree.node? (fileName id :: location) :=
  h.frame _ fun same => hid (fileName_injective (List.cons.inj same).1)

namespace InStep

variable {store next : Store} {tree after : FileTree} {d : Dataset} {id : String} {dir : FilePath}
  {location : Location} {change : Change} {loaded : String → Prop}

theorem touches_add (h : InStep loaded store tree dir location) (hslash : '/' ∉ d.id.toList)
    (saved : (store.saveFile d : StateM FileTree _) tree = (.ok (), after)) :
    Touches (.add d) location store { store with datasets := store.datasets.insert d.id d }
        tree after ∧
      tree.locate (joinPath dir (fileName d.id)) = .ok (fileName d.id :: location) := by
  rw [saveFile, h.directory] at saved
  dsimp only at saved
  rw [run_writeFile] at saved
  obtain ⟨place, located, hfile, rfl⟩ := FileTree.exists_setNode_of_writeFile saved
  obtain rfl :=
    h.hasDir.eq_of_locate_joinPath (slash_notMem_fileName hslash) (fileName_isName d.id) located
  refine ⟨?_, located⟩
  constructor
  case keeps => exact FileTree.keepsDirs_setNode _ hfile
  case frame =>
    intro place hplace
    rw [FileTree.node?_setNode]
    exact if_neg hplace
  case node =>
    rw [FileTree.node?_setNode]
    exact if_pos rfl
  case directory => rfl
  case lookup =>
    intro id
    exact Dictionary.find?_insert _ _ _ _

/-- A dataset that is there has a file, which its removal deletes. -/
theorem touches_remove (h : InStep loaded store tree dir location)
    (there : ∃ d, store.lookup id = some d)
    (deleted : (store.deleteFile id : StateM FileTree _) tree = (.ok (), after)) :
    Touches (.remove id) location store { store with datasets := store.datasets.erase id }
      tree after := by
  obtain ⟨content, located, hnode⟩ := h.file id (Option.isSome_iff_exists.2 there)
  obtain rfl := (Prod.mk.inj
    ((deleteFile_of_locate h.directory located hnode).symm.trans deleted)).2
  have hfile : tree.node? (fileName id :: location) ≠ some .directory := by
    rw [hnode]
    simp
  constructor
  case keeps => exact FileTree.keepsDirs_dropNode hfile
  case frame =>
    intro place hplace
    rw [FileTree.node?_dropNode]
    exact if_neg hplace
  case node =>
    rw [FileTree.node?_dropNode]
    exact if_pos rfl
  case directory => rfl
  case lookup =>
    intro other
    exact Dictionary.find?_erase _ _ _

/-- What a change does, and what is there under its id afterwards. -/
theorem touches (h : InStep loaded store tree dir location) (ordinary : change.Ordinary)
    (changed : (store.change change : StateM FileTree _) tree = ((.ok (), next), after)) :
    Touches change location store next tree after ∧
      (change.entry?.isSome →
        after.locate (joinPath dir (fileName change.id)) = .ok (fileName change.id :: location)) ∧
      ((∀ d ∈ change.entry?, d.SurvivesText) →
        Option.Rel Dataset.Alike change.entry? (after.held? dir location change.id)) := by
  cases change with
  | add d =>
    rcases add_cases store d tree with
      ⟨e, refused⟩ | ⟨e, written, -, refused⟩ | ⟨-, written, saved, added⟩
    · cases (run_change_add refused).symm.trans changed
    · cases (run_change_add refused).symm.trans changed
    cases (run_change_add added).symm.trans changed
    obtain ⟨touches, located⟩ := h.touches_add ordinary.slash saved
    have located := touches.keeps.locate_eq_ok located
    refine ⟨touches, fun _ => located, fun survives => ?_⟩
    obtain ⟨e, held, alike⟩ := FileTree.exists_held?_of_encode (ordinary.built d rfl)
      (survives d rfl) located touches.node
    change Option.Rel Dataset.Alike (some d) (after.held? dir location d.id)
    rw [held]
    exact .some alike
  | remove id =>
    rcases remove_cases store id tree with
      ⟨e, refused⟩ | ⟨e, left, -, refused⟩ | ⟨there, left, deleted, removed⟩
    · cases (run_change_remove refused).symm.trans changed
    · cases (run_change_remove refused).symm.trans changed
    cases (run_change_remove removed).symm.trans changed
    have touches := h.touches_remove there deleted
    have gone : after.held? dir location id = none := FileTree.held?_of_node?_none touches.node
    refine ⟨touches, fun there => absurd there (by simp [Change.entry?]), fun _ => ?_⟩
    change Option.Rel Dataset.Alike none (after.held? dir location id)
    rw [gone]
    exact .none

/-- What is found for another id stays. -/
theorem held?_eq (h : InStep loaded store tree dir location)
    (touches : Touches change location store next tree after) (hid : id ≠ change.id) :
    after.held? dir location id = tree.held? dir location id :=
  h.hasDir.held?_congr (touches.keeps.hasDir h.hasDir) h.plain (touches.node?_eq hid)

/-- A change keeps the store and its directory in step; its id is no longer as it was loaded. -/
theorem of_change (h : InStep loaded store tree dir location) (ordinary : change.Ordinary)
    (changed : (store.change change : StateM FileTree _) tree = ((.ok (), next), after)) :
    InStep (fun id => loaded id ∧ id ≠ change.id) next after dir location := by
  obtain ⟨touches, located, found⟩ := h.touches ordinary changed
  constructor
  case directory => exact touches.directory.trans h.directory
  case hasDir => exact touches.keeps.hasDir h.hasDir
  case plain =>
    intro name hname
    by_cases hplace : name :: location = fileName change.id :: location
    · rw [(List.cons.inj hplace).1]
      exact slash_notMem_fileName ordinary.slash
    · rw [touches.frame _ hplace] at hname
      exact h.plain name hname
  case file =>
    intro id hid
    rw [touches.lookup] at hid
    by_cases same : change.id = id
    · subst same
      rw [if_pos rfl] at hid
      obtain ⟨d, hd⟩ := Option.isSome_iff_exists.1 hid
      refine ⟨d.encode, located hid, ?_⟩
      rw [touches.node, hd, Option.map_some]
    · rw [if_neg same] at hid
      obtain ⟨content, hlocate, hnode⟩ := h.file id hid
      refine ⟨content, touches.keeps.locate_eq_ok hlocate, ?_⟩
      rw [touches.node?_eq (Ne.symm same), hnode]
  case held =>
    intro id known
    rw [touches.lookup] at known ⊢
    by_cases same : change.id = id
    · subst same
      rw [if_pos rfl] at known ⊢
      exact found (known.resolve_left fun other => other.2 rfl)
    · rw [if_neg same] at known ⊢
      rw [h.held?_eq touches (Ne.symm same)]
      exact h.held id (known.imp_left And.left)

theorem mono {loaded' : String → Prop} (h : InStep loaded store tree dir location)
    (fewer : ∀ id, loaded' id → loaded id) : InStep loaded' store tree dir location :=
  { h with held := fun id known => h.held id (known.imp_left (fewer id)) }

/-- The induction is on the changes; one that is refused leaves the files as well as the store. -/
theorem run (h : InStep loaded store tree dir location) {list : List Change}
    (ordinary : ∀ change ∈ list, change.Ordinary) :
    InStep (fun id => loaded id ∧ ∀ change ∈ list, id ≠ change.id)
      ((store.changes list : StateM FileTree _) tree).1
      ((store.changes list : StateM FileTree _) tree).2 dir location := by
  induction list generalizing loaded store tree with
  | nil => exact h.mono fun id known => known.1
  | cons first rest ih =>
    obtain ⟨head, tail⟩ := List.forall_mem_cons.1 ordinary
    rw [changes, run_bind]
    cases changed : (store.change first : StateM FileTree _) tree with
    | mk outcome after =>
      obtain ⟨result, next⟩ := outcome
      cases result with
      | ok =>
        refine (ih (h.of_change head changed) tail).mono fun id known => ?_
        rw [List.forall_mem_cons] at known
        exact ⟨⟨known.1, known.2.1⟩, known.2.2⟩
      | error e =>
        obtain ⟨rfl, rfl⟩ := eq_of_change_error changed
        refine (ih h tail).mono fun id known => ?_
        rw [List.forall_mem_cons] at known
        exact ⟨known.1, known.2.2⟩

/-- A store that was just opened is in step with its directory. -/
theorem of_openDir {made : FileTree}
    (opened : (openDir dir : StateM FileTree _) tree = (.ok store, made))
    (named : ∀ names, made.listDir dir = .ok names → ∀ name ∈ names, slash ∉ name) :
    ∃ location, InStep (fun _ => True) store made dir location := by
  obtain ⟨names, found⟩ := exists_finds_of_openDir readsOnly_fileTree opened
  have loads := loads_of_openDir readsOnly_fileTree opened found
  obtain ⟨listed, -, hnames⟩ := found
  rw [run_listDir] at hnames
  obtain ⟨hlist, rfl⟩ := Prod.mk.inj hnames
  obtain ⟨location, hasDir⟩ := FileTree.exists_hasDir hlist
  obtain ⟨others, hothers, hmem⟩ := hasDir.exists_listDir
  obtain rfl := Except.ok.inj (hlist.symm.trans hothers)
  have plain := hasDir.plainNames_iff.2 named
  have held : ∀ id, store.lookup id = listed.held? dir location id := by
    intro id
    rw [loads.lookup, FileTree.held?]
    simp only [hmem]
  refine ⟨location, loads.directory, hasDir, plain, ?file, ?held⟩
  case file =>
    intro id hid
    obtain ⟨d, hd⟩ := Option.isSome_iff_exists.1 hid
    rw [held] at hd
    exact hasDir.exists_file_of_held? plain hd
  case held =>
    intro id _
    rw [held]
    cases listed.held? dir location id with
    | none => exact .none
    | some d => exact .some (.refl d)

end InStep

/-- What a change that was made comes to, for the files and for the next opening. -/
structure StaysInFile (change : Change) (loaded : String → Prop) (dir : FilePath)
    (location : Location) (store next : Store) (tree after : FileTree) : Prop where
  hasDir : tree.HasDir dir location
  touches : Touches change location store next tree after
  /-- Paths of different ids do not lead to the same place. -/
  apart : ∀ id other place, '/' ∉ id.toList → '/' ∉ other.toList →
    tree.locate (joinPath dir (fileName id)) = .ok place →
      tree.locate (joinPath dir (fileName other)) = .ok place → id = other
  reopens : ∃ reopened, (openDir dir : StateM FileTree _) after = (.ok reopened, after) ∧
    (∀ id, id ≠ change.id → loaded id ∨ (∀ d ∈ store.lookup id, d.SurvivesText) →
      Option.Rel Dataset.Alike (store.lookup id) (reopened.lookup id)) ∧
    ((∀ d ∈ change.entry?, d.SurvivesText) →
      Option.Rel Dataset.Alike change.entry? (reopened.lookup change.id)) ∧
    -- Other ids have what an opening without the change would have found, whatever their numbers are.
    ∀ before, (openDir dir : StateM FileTree _) tree = (.ok before, tree) →
      ∀ id, id ≠ change.id → reopened.lookup id = before.lookup id

section

variable {dir : FilePath} {store current next : Store} {start made disk after : FileTree}
  {done : List Change} {change : Change}

/-- A change stays in the file of its id, whatever was changed since the store was opened and
whatever else is in its directory. An id with a slash is no name of a file and is not covered. What
was loaded and not changed since is loaded again; a dataset that was added is loaded again if its
numbers survive their text. -/
theorem change_stays_in_file
    (opened : (openDir dir : StateM FileTree _) start = (.ok store, made))
    (named : ∀ names, made.listDir dir = .ok names → ∀ name ∈ names, slash ∉ name)
    (ordinary : ∀ earlier ∈ change :: done, earlier.Ordinary)
    (reached : (store.changes done : StateM FileTree _) made = (current, disk))
    (changed : (current.change change : StateM FileTree _) disk = ((.ok (), next), after)) :
    ∃ location, StaysInFile change (fun id => ∀ earlier ∈ done, id ≠ earlier.id) dir location current
      next disk after := by
  obtain ⟨head, tail⟩ := List.forall_mem_cons.1 ordinary
  obtain ⟨location, h⟩ := InStep.of_openDir opened named
  have h := h.run tail
  rw [reached] at h
  obtain ⟨touches, -, found⟩ := h.touches head changed
  have h' := h.of_change head changed
  obtain ⟨reopened, hreopened, -, hheld⟩ := h'.hasDir.exists_openDir_held
  refine ⟨location, h.hasDir, touches, ?apart, reopened, hreopened, ?others, ?own, ?before⟩
  case apart =>
    intro id other place hid hother located located'
    have first := h.hasDir.eq_of_locate_joinPath (slash_notMem_fileName hid) (fileName_isName id)
      located
    have second := h.hasDir.eq_of_locate_joinPath (slash_notMem_fileName hother)
      (fileName_isName other) located'
    exact fileName_injective (List.cons.inj (first.symm.trans second)).1
  case others =>
    intro id hid known
    have held := h'.held id
    rw [touches.lookup, if_neg (Ne.symm hid), ← hheld] at held
    exact held (known.imp_left fun untouched => ⟨⟨trivial, untouched⟩, hid⟩)
  case own =>
    rwa [hheld]
  case before =>
    intro before hbefore id hid
    obtain ⟨other, hother, -, hheld'⟩ := h.hasDir.exists_openDir_held
    obtain rfl := Except.ok.inj (Prod.mk.inj (hbefore.symm.trans hother)).1
    rw [hheld, hheld', h.held?_eq touches hid]

end

section Sample

/-- A dataset of no rooms. -/
def noRooms (id : String) : Dataset := ⟨id, .rooms, []⟩

theorem noRooms_ordinary : Change.Ordinary (.add (noRooms "a")) where
  slash := by decide
  built := by
    rintro d ⟨⟩
    rfl

/-- A store that was opened on an empty directory and given one dataset, and its files. -/
def sampleStore : Store := ⟨some (utf8 "/data"), Dictionary.empty.insert "a" (noRooms "a")⟩

def sampleFiles : FileTree :=
  (FileTree.ofWorkingDir [utf8 "data"]).setNode [utf8 "a.json", utf8 "data"] (.file (noRooms "a").encode)

theorem openDir_empty : (openDir (utf8 "/data") : StateM FileTree _) (.ofWorkingDir [utf8 "data"]) =
    (.ok ⟨some (utf8 "/data"), .empty⟩, .ofWorkingDir [utf8 "data"]) := rfl

theorem changes_sample : (Store.changes ⟨some (utf8 "/data"), .empty⟩ [.add (noRooms "a")] :
    StateM FileTree _) (.ofWorkingDir [utf8 "data"]) = (sampleStore, sampleFiles) := by
  have added : (Store.change ⟨some (utf8 "/data"), .empty⟩ (.add (noRooms "a")) : StateM FileTree _)
      (.ofWorkingDir [utf8 "data"]) = ((.ok (), sampleStore), sampleFiles) :=
    change_add_of_locate rfl rfl rfl rfl (by decide)
  rw [changes, run_bind, added]
  rfl

/-- A second dataset is added; the next opening finds both. -/
theorem change_stays_in_file_sample : ∃ next after reopened,
    (sampleStore.change (.add ⟨"cs", .courses, sampleSections⟩) : StateM FileTree _) sampleFiles =
      ((.ok (), next), after) ∧
    (openDir (utf8 "/data") : StateM FileTree _) after = (.ok reopened, after) ∧
      Option.Rel Dataset.Alike (some (noRooms "a")) (reopened.lookup "a") ∧
        Option.Rel Dataset.Alike (some ⟨"cs", .courses, sampleSections⟩) (reopened.lookup "cs") := by
  have survives : Dataset.SurvivesText ⟨"cs", .courses, sampleSections⟩ := by decide +kernel
  have ordinary : Change.Ordinary (.add ⟨"cs", .courses, sampleSections⟩) := by
    refine ⟨by decide, ?_⟩
    rintro d ⟨⟩
    exact sampleDatasets_built "cs" _ rfl
  have changed : (sampleStore.change (.add ⟨"cs", .courses, sampleSections⟩) :
      StateM FileTree _) sampleFiles = ((.ok (), _), sampleFiles.setNode [utf8 "cs.json", utf8 "data"] _) :=
    change_add_of_locate rfl rfl rfl rfl (by decide)
  have empty : (FileTree.ofWorkingDir [utf8 "data"]).listDir (utf8 "/data") = .ok [] := rfl
  obtain ⟨location, stays⟩ := change_stays_in_file openDir_empty
    (by simp [empty])
    (by simp [ordinary, noRooms_ordinary])
    changes_sample changed
  obtain ⟨reopened, hreopened, others, own, -⟩ := stays.reopens
  refine ⟨_, _, reopened, changed, hreopened, others "a" (by decide) (.inr ?_), own ?_⟩
  · rintro d ⟨⟩
    decide
  · rintro d ⟨⟩
    exact survives

/-- The path of the id `./a` leads to the file of `a`: after its addition neither is opened again. -/
theorem change_of_dotted_id : ∃ next after reopened,
    (noRooms "./a").Built ∧
    (sampleStore.change (.add (noRooms "./a")) : StateM FileTree _) sampleFiles =
      ((.ok (), next), after) ∧
    (openDir (utf8 "/data") : StateM FileTree _) after = (.ok reopened, after) ∧
      reopened.lookup "a" = none ∧ reopened.lookup "./a" = none := by
  have built : (noRooms "./a").Built := rfl
  have survives : (noRooms "./a").SurvivesText := by decide
  have changed : (sampleStore.change (.add (noRooms "./a")) : StateM FileTree _) sampleFiles =
      ((.ok (), _), sampleFiles.setNode [utf8 "a.json", utf8 "data"] _) :=
    change_add_of_locate rfl rfl rfl rfl (by decide)
  have hasDir : (sampleFiles.setNode [utf8 "a.json", utf8 "data"]
      (.file (noRooms "./a").encode)).HasDir (utf8 "/data") [utf8 "data"] := ⟨rfl, rfl⟩
  obtain ⟨reopened, hreopened, -, hheld⟩ := hasDir.exists_openDir_held
  refine ⟨_, _, reopened, built, changed, hreopened, ?_, ?_⟩
  · obtain ⟨e, decoded, alike⟩ := Dataset.exists_decode?_encode built survives
    rw [hheld, Option.eq_none_iff_forall_ne_some]
    intro d held
    obtain ⟨bytes, hbytes, stored, hid⟩ :=
      heldAt?_eq_some_iff.1 (FileTree.held?_eq_some_iff.1 held).2
    obtain rfl := Except.ok.inj hbytes
    obtain rfl := Option.some.inj (decoded.symm.trans (Dataset.decode?_eq_some_iff.2 stored))
    exact absurd (alike.id.trans hid) (by decide)
  · rw [hheld]
    exact FileTree.held?_of_node?_none rfl

end Sample

end Store

end CampusQuery
