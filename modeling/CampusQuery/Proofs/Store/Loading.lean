import CampusQuery.Proofs.Data.Dictionary
import CampusQuery.Proofs.Store.Codec
import CampusQuery.Proofs.Store.Steps

/-!
What a store has when it is opened. Main statement: it has exactly the datasets whose own files, of
those in the directory, say so; other files and the order in which files are listed do not matter.
-/

namespace CampusQuery

/-- A dictionary is what its lookups give. -/
theorem Dictionary.ext_find? {α : Type u} {xs ys : Dictionary α}
    (h : ∀ name, xs.find? name = ys.find? name) : xs = ys := by
  have related : ∀ name, Option.Rel Eq (xs.entries.find? name) (ys.entries.find? name) := by
    intro name
    have same : xs.entries.find? name = ys.entries.find? name := h name
    rw [same]
    cases ys.entries.find? name with
    | none => exact .none
    | some value => exact .some rfl
  have entries : xs.entries = ys.entries := by
    rw [← List.forall₂_eq_eq_eq]
    exact (xs.ascending.forall₂_of_rel ys.ascending related).imp fun a b hab =>
      Prod.ext hab.1 hab.2
  cases xs
  cases ys
  cases entries
  rfl

/-- A store is its directory and what its lookups give. -/
theorem Store.ext_lookup {store store' : Store} (directory : store.dir = store'.dir)
    (lookup : ∀ id, store.lookup id = store'.lookup id) : store = store' := by
  have datasets : store.datasets = store'.datasets := Dictionary.ext_find? lookup
  cases store
  cases store'
  cases directory
  cases datasets
  rfl

namespace Dataset

variable {bytes : ByteArray} {d : Dataset}

/-- The bytes are a text with the parts of the dataset, and the parts pass the check. -/
structure IsStored (bytes : ByteArray) (d : Dataset) : Prop where
  parts : ∃ text raw id kind records, String.fromUTF8? bytes = some text ∧
    RawJson.parse? text = some raw ∧ partsOfRaw? raw = some (id, kind, records) ∧
      id.string? = some d.id ∧ SchemaKind.ofRaw? kind = some d.kind ∧
        recordsOfRaw? records = some d.records
  built : d.Built

theorem decode?_eq_some_iff : decode? bytes = some d ↔ IsStored bytes d := by
  simp only [decode?, ofText?, Option.bind_eq_some_iff]
  constructor
  · rintro ⟨text, htext, raw, hraw, h⟩
    unfold ofRaw? at h
    simp only [Option.bind_eq_bind, Option.bind_eq_some_iff] at h
    obtain ⟨⟨rawId, rawKind, rawRecords⟩, hparts, id, hid, kind, hkind, records, hrecords, h⟩ := h
    cases hbuild : build id kind records with
    | error e =>
      rw [hbuild] at h
      contradiction
    | ok built =>
      rw [hbuild] at h
      obtain rfl := Option.some.inj h
      obtain ⟨-, -, rfl⟩ := build_eq_ok.1 hbuild
      exact ⟨⟨text, raw, rawId, rawKind, rawRecords, htext, hraw, hparts, hid, hkind, hrecords⟩,
        hbuild⟩
  · rintro ⟨⟨text, raw, id, kind, records, htext, hraw, hparts, hid, hkind, hrecords⟩, built⟩
    refine ⟨text, htext, raw, hraw, ?_⟩
    unfold ofRaw?
    simp only [hparts, hid, hkind, hrecords, Option.bind_eq_bind, Option.bind_some]
    exact congrArg Except.toOption built

theorem Built.id_ne_empty (h : d.Built) : d.id ≠ "" := by
  intro hempty
  have valid := (built_iff.1 h).1
  rw [hempty] at valid
  revert valid
  decide

end Dataset

namespace Store

/-- The id whose file has this name. -/
def idOfFileName? (name : FileName) : Option String :=
  (stem? name).bind textOfUtf8?

theorem idOfFileName?_eq_some_iff {name : FileName} {id : String} :
    idOfFileName? name = some id ↔ id ≠ "" ∧ name = fileName id := by
  simp only [idOfFileName?, Option.bind_eq_some_iff, textOfUtf8?_eq_some_iff]
  constructor
  · rintro ⟨stem, hstem, rfl⟩
    obtain ⟨filled, rfl⟩ := stem?_eq_some_iff.1 hstem
    exact ⟨fun h => filled (utf8_eq_nil_iff.2 h), (fileName_eq id).symm⟩
  · rintro ⟨hid, rfl⟩
    exact ⟨utf8 id, stem?_fileName hid, rfl⟩

section Opening

variable {σ : Type} [Files (StateM σ)]

/-- What is read from a path while the files are in this state. -/
def contentAt (path : FilePath) (state : σ) : Except FileError ByteArray :=
  ((Files.readFile path : StateM σ _) state).1

/-- Reading does not change the state of the files. -/
def ReadsOnly (σ : Type) [Files (StateM σ)] : Prop :=
  ∀ (path : FilePath) (state : σ), ((Files.readFile path : StateM σ _) state).2 = state

/-- Opening makes the directory and then finds these names in it. -/
def Finds (dir : FilePath) (state : σ) (names : List FileName) (after : σ) : Prop :=
  ∃ made, (Files.createDirs dir : StateM σ _) state = (.ok (), made) ∧
    (Files.listDir dir : StateM σ _) made = (.ok names, after)

/-- The dataset in the file of an id, if it is one of that id. -/
def heldAt? (dir : FilePath) (id : String) (state : σ) : Option Dataset :=
  match contentAt (joinPath dir (fileName id)) state with
  | .error _ => none
  | .ok bytes => (Dataset.decode? bytes).filter fun dataset => dataset.id = id

/-- The store has what the files of these names hold. -/
structure Loads (store : Store) (dir : FilePath) (names : List FileName) (state : σ) : Prop where
  directory : store.dir = some dir
  lookup : ∀ id, store.lookup id = if fileName id ∈ names then heldAt? dir id state else none

variable {dir : FilePath} {id : String} {state after : σ} {d : Dataset}

theorem heldAt?_eq_some_iff : heldAt? dir id state = some d ↔
    ∃ bytes, contentAt (joinPath dir (fileName id)) state = .ok bytes ∧
      Dataset.IsStored bytes d ∧ d.id = id := by
  unfold heldAt?
  cases contentAt (joinPath dir (fileName id)) state with
  | error e => simp
  | ok bytes => simp [Dataset.decode?_eq_some_iff]

/-- No dataset has the empty id, so the name `.json` need not be read. -/
theorem heldAt?_empty (dir : FilePath) (state : σ) : heldAt? dir "" state = none := by
  rw [Option.eq_none_iff_forall_ne_some]
  intro d hd
  obtain ⟨bytes, -, stored, hid⟩ := heldAt?_eq_some_iff.1 hd
  exact stored.built.id_ne_empty hid

variable (reads : ReadsOnly σ)

include reads

theorem run_loadFile (path : FilePath) (state : σ) :
    (loadFile path : StateM σ _) state =
      (match contentAt path state with
        | .error _ => none
        | .ok bytes => Dataset.decode? bytes, state) := by
  have unchanged := reads path state
  rw [loadFile, run_bind, unchanged]
  change _ = (match ((Files.readFile path : StateM σ _) state).1 with
    | .error _ => none
    | .ok bytes => Dataset.decode? bytes, state)
  cases ((Files.readFile path : StateM σ _) state).1 <;> rfl

/-- A name adds at most the dataset of the one id that it is the file name of. -/
theorem run_loadEntry (dir : FilePath) (name : FileName) (loaded : Dictionary Dataset) (state : σ) :
    (loadEntry dir loaded name : StateM σ _) state =
      (match (idOfFileName? name).bind fun id => heldAt? dir id state with
        | none => loaded
        | some dataset => loaded.insert dataset.id dataset, state) := by
  rw [loadEntry, idOfFileName?]
  cases hstem : stem? name with
  | none => rfl
  | some stem =>
    dsimp only
    rw [run_bind, run_loadFile reads, Option.bind_some]
    cases htext : textOfUtf8? stem with
    | none =>
      -- The dataset of the file is looked at, but its id is not empty.
      rw [Option.getD_none, Option.bind_none]
      cases contentAt (joinPath dir name) state with
      | error e => rfl
      | ok bytes =>
        dsimp only
        cases hdecoded : Dataset.decode? bytes with
        | none => rfl
        | some dataset =>
          have filled := (Dataset.decode?_eq_some_iff.1 hdecoded).built.id_ne_empty
          dsimp only
          rw [if_neg filled]
          rfl
    | some id =>
      obtain ⟨-, rfl⟩ := stem?_eq_some_iff.1 hstem
      obtain rfl := textOfUtf8?_eq_some_iff.1 htext
      rw [Option.getD_some, Option.bind_some, ← fileName_eq, heldAt?]
      cases contentAt (joinPath dir (fileName id)) state with
      | error e => rfl
      | ok bytes =>
        dsimp only
        cases Dataset.decode? bytes with
        | none => rfl
        | some dataset =>
          dsimp only
          by_cases hid : dataset.id = id
          · subst hid
            simp [run_pure, Option.filter_some]
          · simp [run_pure, Option.filter_some, hid]

/-- The induction is on the names that are left; a dataset that is there can only be put there again,
since it is in the file of its id. -/
theorem exists_run_foldlM (dir : FilePath) (names : List FileName) (start : Dictionary Dataset)
    (state : σ) : ∃ loaded,
      (names.foldlM (loadEntry dir) start : StateM σ _) state = (loaded, state) ∧
        ∀ id, loaded.find? id =
          (if fileName id ∈ names then heldAt? dir id state else none).or (start.find? id) := by
  induction names generalizing start with
  | nil => exact ⟨start, rfl, fun id => rfl⟩
  | cons name names ih =>
    rw [List.foldlM_cons, run_bind, run_loadEntry reads]
    dsimp only
    cases hadded : (idOfFileName? name).bind fun id => heldAt? dir id state with
    | none =>
      obtain ⟨loaded, hloaded, hfind⟩ := ih start
      refine ⟨loaded, hloaded, fun id => ?_⟩
      rw [hfind]
      by_cases hname : name = fileName id
      · have nothing : heldAt? dir id state = none := by
          by_cases hid : id = ""
          · rw [hid, heldAt?_empty]
          · rwa [idOfFileName?_eq_some_iff.2 ⟨hid, hname⟩, Option.bind_some] at hadded
        rw [nothing, ite_self, ite_self]
      · simp only [List.mem_cons, Ne.symm hname, false_or]
    | some dataset =>
      obtain ⟨id, hid, held⟩ := Option.bind_eq_some_iff.1 hadded
      obtain ⟨-, rfl⟩ := idOfFileName?_eq_some_iff.1 hid
      obtain ⟨-, -, -, rfl⟩ := heldAt?_eq_some_iff.1 held
      obtain ⟨loaded, hloaded, hfind⟩ := ih (start.insert dataset.id dataset)
      refine ⟨loaded, hloaded, fun id => ?_⟩
      rw [hfind, Dictionary.find?_insert]
      by_cases hname : dataset.id = id
      · subst hname
        rw [held, if_pos rfl, if_pos List.mem_cons_self]
        split <;> rfl
      · have other : fileName id ≠ fileName dataset.id := fun heq =>
          hname (fileName_injective heq).symm
        rw [if_neg hname]
        simp only [List.mem_cons, other, false_or]

theorem loads_of_finds {names : List FileName} (h : Finds dir state names after) : ∃ store,
    (openDir dir : StateM σ _) state = (.ok store, after) ∧ store.Loads dir names after := by
  obtain ⟨made, hmade, hnames⟩ := h
  obtain ⟨loaded, hloaded, hfind⟩ := exists_run_foldlM reads dir names .empty after
  refine ⟨⟨some dir, loaded⟩, ?_, rfl, fun id => ?_⟩
  · rw [openDir, run_bind, hmade]
    dsimp only
    rw [run_bind, hnames]
    dsimp only
    rw [run_bind, hloaded, run_pure]
  · rw [Store.lookup, hfind, Dictionary.find?_empty, Option.or_none]

theorem exists_finds_of_openDir {store : Store}
    (h : (openDir dir : StateM σ _) state = (.ok store, after)) :
    ∃ names, Finds dir state names after := by
  have opened := h
  rw [openDir, run_bind] at h
  cases hmade : (Files.createDirs dir : StateM σ _) state with
  | mk result made =>
    rw [hmade] at h
    cases result with
    | error e => cases h
    | ok =>
      dsimp only at h
      rw [run_bind] at h
      cases hnames : (Files.listDir dir : StateM σ _) made with
      | mk result listed =>
        rw [hnames] at h
        cases result with
        | error e => cases h
        | ok names =>
          obtain ⟨other, hother, -⟩ := loads_of_finds reads ⟨made, hmade, hnames⟩
          cases (Prod.mk.inj (opened.symm.trans hother)).2
          exact ⟨names, made, hmade, hnames⟩

theorem loads_of_openDir {store : Store} {names : List FileName}
    (h : (openDir dir : StateM σ _) state = (.ok store, after))
    (found : Finds dir state names after) : store.Loads dir names after := by
  obtain ⟨other, hother, loads⟩ := loads_of_finds reads found
  cases (Prod.mk.inj (h.symm.trans hother)).1
  exact loads

omit reads in
theorem Loads.lookup_congr {store store' : Store} {names names' : List FileName} {state' : σ}
    (h : store.Loads dir names state) (h' : store'.Loads dir names' state')
    (listed : fileName id ∈ names ↔ fileName id ∈ names')
    (content : contentAt (joinPath dir (fileName id)) state =
      contentAt (joinPath dir (fileName id)) state') : store.lookup id = store'.lookup id := by
  have held : heldAt? dir id state = heldAt? dir id state' := by
    rw [heldAt?, heldAt?, content]
  rw [h.lookup, h'.lookup, held]
  simp only [listed]

omit reads in
theorem Loads.eq_of_mem_iff {store store' : Store} {names names' : List FileName} {state' : σ}
    (h : store.Loads dir names state) (h' : store'.Loads dir names' state')
    (listed : ∀ name, name ∈ names ↔ name ∈ names')
    (content : ∀ name ∈ names,
      contentAt (joinPath dir name) state = contentAt (joinPath dir name) state') :
    store = store' := by
  apply Store.ext_lookup (h.directory.trans h'.directory.symm)
  intro id
  by_cases hid : fileName id ∈ names
  · exact h.lookup_congr h' (listed _) (content _ hid)
  · have hid' : fileName id ∉ names' := fun hmem => hid ((listed _).2 hmem)
    rw [h.lookup, h'.lookup, if_neg hid, if_neg hid']

/-- What opening a directory comes to when these names are found in it. -/
structure Opens (store : Store) (dir : FilePath) (names : List FileName) (state : σ) : Prop where
  /-- A dataset is there when the file of its id is listed, can be read and holds it. -/
  lookup : ∀ id d, store.lookup id = some d ↔ fileName id ∈ names ∧ ∃ bytes,
    contentAt (joinPath dir (fileName id)) state = .ok bytes ∧ Dataset.IsStored bytes d ∧ d.id = id
  /-- No two files compete: a name changes nothing but the id that it is the file name of. A name that
  is no text changes nothing. -/
  single : ∀ name id loaded, name ≠ fileName id →
    ((loadEntry dir loaded name : StateM σ _) state).1.find? id = loaded.find? id
  /-- Copies under other names do not stand in for the file of an id. -/
  unlisted : ∀ id, fileName id ∉ names → store.lookup id = none
  /-- Of two openings, those ids have the same dataset whose own files are the same. -/
  others : ∀ (before' state' : σ) (store' : Store) (names' : List FileName),
    (openDir dir : StateM σ _) before' = (.ok store', state') → Finds dir before' names' state' →
      ∀ id, (fileName id ∈ names ↔ fileName id ∈ names') →
        contentAt (joinPath dir (fileName id)) state =
          contentAt (joinPath dir (fileName id)) state' → store.lookup id = store'.lookup id
  /-- The order in which names are listed does not matter. -/
  order : ∀ (before' state' : σ) (store' : Store) (names' : List FileName),
    (openDir dir : StateM σ _) before' = (.ok store', state') → Finds dir before' names' state' →
      names.Perm names' → (∀ name ∈ names, contentAt (joinPath dir name) state =
        contentAt (joinPath dir name) state') → store = store'

/-- A store that was opened has exactly the datasets that their own files say. A file that is no
text, does not decode, fails the check or holds another id leaves no trace, and so does every file
of another name. -/
theorem openDir_opens {store : Store} (h : (openDir dir : StateM σ _) state = (.ok store, after)) :
    ∃ names, Finds dir state names after ∧ store.Opens dir names after := by
  obtain ⟨names, found⟩ := exists_finds_of_openDir reads h
  have loads := loads_of_openDir reads h found
  refine ⟨names, found, ?_⟩
  constructor
  case lookup =>
    intro id d
    rw [loads.lookup]
    by_cases hid : fileName id ∈ names
    · rw [if_pos hid, heldAt?_eq_some_iff]
      exact (and_iff_right hid).symm
    · rw [if_neg hid]
      exact ⟨fun hnone => absurd hnone (by simp), fun hheld => absurd hheld.1 hid⟩
  case single =>
    intro name id loaded hname
    rw [run_loadEntry reads]
    dsimp only
    cases hadded : (idOfFileName? name).bind fun id => heldAt? dir id after with
    | none => rfl
    | some dataset =>
      obtain ⟨other, hother, held⟩ := Option.bind_eq_some_iff.1 hadded
      obtain ⟨-, rfl⟩ := idOfFileName?_eq_some_iff.1 hother
      obtain ⟨-, -, -, rfl⟩ := heldAt?_eq_some_iff.1 held
      dsimp only
      rw [Dictionary.find?_insert, if_neg]
      rintro rfl
      exact hname rfl
  case unlisted =>
    intro id hid
    rw [loads.lookup, if_neg hid]
  case others =>
    intro before' state' store' names' h' found' id listed content
    exact loads.lookup_congr (loads_of_openDir reads h' found') listed content
  case order =>
    intro before' state' store' names' h' found' perm content
    exact loads.eq_of_mem_iff (loads_of_openDir reads h' found') (fun _ => perm.mem_iff) content

end Opening

/-! ### On a tree -/

theorem readsOnly_fileTree : ReadsOnly FileTree := fun _ _ => rfl

section Tree

variable {tree : FileTree} {dir : FilePath} {location : Location}

/-- Opening finds the names of the nodes in a directory that is there. -/
theorem Finds.mem_iff {names : List FileName} {after : FileTree} (h : tree.HasDir dir location)
    (found : Finds dir tree names after) :
    after = tree ∧ ∀ name, name ∈ names ↔ (tree.node? (name :: location)).isSome := by
  obtain ⟨made, hmade, hnames⟩ := found
  obtain ⟨listed, hlisted, hmem⟩ := h.exists_listDir
  rw [run_createDirs, h.createDirs_eq] at hmade
  obtain rfl := (Prod.mk.inj hmade).2
  rw [run_listDir, hlisted] at hnames
  obtain ⟨same, rfl⟩ := Prod.mk.inj hnames
  obtain rfl := Except.ok.inj same
  exact ⟨rfl, hmem⟩

/-- A directory that is there is opened as it is. -/
theorem exists_openDir (h : tree.HasDir dir location) : ∃ names store,
    (openDir dir : StateM FileTree _) tree = (.ok store, tree) ∧ store.Loads dir names tree ∧
      ∀ name, name ∈ names ↔ (tree.node? (name :: location)).isSome := by
  obtain ⟨names, hnames, hmem⟩ := h.exists_listDir
  have found : Finds dir tree names tree :=
    ⟨tree, by rw [run_createDirs, h.createDirs_eq], by rw [run_listDir, hnames]⟩
  obtain ⟨store, hstore, loads⟩ := loads_of_finds readsOnly_fileTree found
  exact ⟨names, store, hstore, loads, hmem⟩

end Tree

/-- A dataset whose id is the character that stands for bytes that are no text. -/
def sampleReplaced : Dataset := ⟨"\uFFFD", .courses, []⟩

/-- The sample dataset in its own file, next to a copy, a directory and other files. The last name
is no text, and its file holds a dataset of the id that a reader could take it for. -/
def sampleDirectory : FileTree where
  nodes := [
    ([utf8 "copy.json", utf8 "data"], .file (Dataset.encode ⟨"cs", .courses, sampleSections⟩)),
    ([utf8 "cs.json", utf8 "data"], .file (Dataset.encode ⟨"cs", .courses, sampleSections⟩)),
    ([utf8 "old.json", utf8 "data"], .directory),
    ([utf8 "cs.json.bak", utf8 "data"], .file "{}".toUTF8),
    ([utf8 ".json", utf8 "data"], .file "".toUTF8),
    ([0xff :: utf8 ".json", utf8 "data"], .file sampleReplaced.encode),
    ([utf8 "data"], .directory)]
  workingDir := []

theorem sampleDirectory_hasDir : sampleDirectory.HasDir (utf8 "data") [utf8 "data"] :=
  ⟨rfl, rfl⟩

theorem openDir_opens_sample : ∃ store,
    (openDir (utf8 "data") : StateM FileTree _) sampleDirectory = (.ok store, sampleDirectory) ∧
      (∃ d, store.lookup "cs" = some d ∧ Dataset.Alike ⟨"cs", .courses, sampleSections⟩ d) ∧
        store.lookup "copy" = none ∧ store.lookup "old" = none ∧
          store.lookup sampleReplaced.id = none := by
  obtain ⟨-, store, hstore, -, -⟩ := exists_openDir sampleDirectory_hasDir
  obtain ⟨names, found, opens⟩ := openDir_opens readsOnly_fileTree hstore
  have survives : Dataset.SurvivesText ⟨"cs", .courses, sampleSections⟩ := by decide +kernel
  obtain ⟨d, decoded, alike⟩ :=
    Dataset.exists_decode?_encode (sampleDatasets_built "cs" _ rfl) survives
  have stored := Dataset.decode?_eq_some_iff.1 decoded
  refine ⟨store, hstore, ⟨d, (opens.lookup "cs" d).2 ⟨?_, _, rfl, stored, alike.id.symm⟩, alike⟩,
    ?_, ?_, ?_⟩
  · exact ((found.mem_iff sampleDirectory_hasDir).2 _).2 rfl
  · rw [Option.eq_none_iff_forall_ne_some]
    intro other hother
    obtain ⟨-, bytes, hbytes, copied, hid⟩ := (opens.lookup "copy" other).1 hother
    obtain rfl := Except.ok.inj hbytes
    obtain rfl := Option.some.inj (decoded.symm.trans (Dataset.decode?_eq_some_iff.2 copied))
    exact absurd (alike.id.trans hid) (by decide)
  · rw [Option.eq_none_iff_forall_ne_some]
    intro other hother
    obtain ⟨-, bytes, hbytes, -⟩ := (opens.lookup "old" other).1 hother
    have unread : contentAt (joinPath (utf8 "data") (fileName "old")) sampleDirectory =
        .error .isDirectory := rfl
    cases unread.symm.trans hbytes
  · apply opens.unlisted
    intro listed
    have missing : sampleDirectory.node? [fileName sampleReplaced.id, utf8 "data"] = none := rfl
    have there := ((found.mem_iff sampleDirectory_hasDir).2 _).1 listed
    rw [missing] at there
    exact Bool.false_ne_true there

end Store

end CampusQuery
