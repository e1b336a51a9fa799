import CampusQuery.Proofs.Query.Congruence
import CampusQuery.Proofs.Store.Session

/-!
Stores on a directory and stores in memory. Main statement: however often it is opened again, a
store on a directory that was empty answers as a store in memory does, as long as no call of the
file system fails.
-/

namespace CampusQuery

namespace Request

/-- A dataset to add was checked, has numbers that survive their text and an id that is one name. -/
def Storable : Request → Prop
  | .add d => d.Built ∧ d.SurvivesText ∧ '/' ∉ d.id.toList
  | _ => True

/-- The file of a dataset to add is within the limits of the file system. -/
def Fits (dir : FilePath) : Request → Prop
  | .add d => FileTree.checkPath (joinPath dir (Store.fileName d.id)) = .ok () ∧
      (Store.fileName d.id).length ≤ FileTree.maxNameSize
  | _ => True

end Request

/-- A store may be opened again at any time. -/
def Event.Storable : Event → Prop
  | .request asked => asked.Storable
  | .reopen => True

def Event.Fits (dir : FilePath) : Event → Prop
  | .request asked => asked.Fits dir
  | .reopen => True

namespace Store

/-- The stores hold the same datasets, up to the signs of zeros, and so does the directory of the
second one. -/
structure Mirrors (memory disk : Store) (tree : FileTree) (dir : FilePath) (location : Location) :
    Prop where
  memoryDir : memory.dir = none
  diskDir : disk.dir = some dir
  holds : tree.Holds dir location memory.lookup
  alike : memory.lookup.Alike disk.lookup

namespace Mirrors

variable {memory disk : Store} {tree : FileTree} {dir : FilePath} {location : Location}

section Answers

theorem entries (h : memory.Mirrors disk tree dir location) :
    List.Forall₂ (fun a b => a.1 = b.1 ∧ Dataset.Alike a.2 b.2) memory.datasets.entries
      disk.datasets.entries :=
  memory.datasets.ascending.forall₂_of_rel disk.datasets.ascending h.alike

theorem ids_eq (h : memory.Mirrors disk tree dir location) : memory.ids = disk.ids := by
  rw [ids, ids, Dictionary.names, Dictionary.names, ← List.forall₂_eq_eq_eq,
    List.forall₂_map_left_iff, List.forall₂_map_right_iff]
  exact h.entries.imp fun _ _ hentry => hentry.1

theorem size_eq (h : memory.Mirrors disk tree dir location) : memory.size = disk.size :=
  h.entries.length_eq

theorem list_eq (h : memory.Mirrors disk tree dir location) : memory.list = disk.list := by
  rw [list, list, Dictionary.values, Dictionary.values, List.map_map, List.map_map,
    ← List.forall₂_eq_eq_eq, List.forall₂_map_left_iff, List.forall₂_map_right_iff]
  exact h.entries.imp fun _ _ hentry => hentry.2.summary_eq

theorem contains_eq (h : memory.Mirrors disk tree dir location) (id : String) :
    memory.datasets.contains id = disk.datasets.contains id := by
  rw [Dictionary.contains, Dictionary.contains]
  rcases rel_cases (h.alike id) with ⟨hmemory, hdisk⟩ | ⟨d, e, hmemory, hdisk, -⟩
  · rw [lookup] at hmemory hdisk
    rw [hmemory, hdisk]
  · rw [lookup] at hmemory hdisk
    rw [hmemory, hdisk]
    rfl

theorem get_agrees (h : memory.Mirrors disk tree dir location) (id : String) :
    Agree (fun d e => Dataset.equal d e = true) (memory.get id) (disk.get id) := by
  rw [get, get]
  rcases rel_cases (h.alike id) with ⟨hmemory, hdisk⟩ | ⟨d, e, hmemory, hdisk, hlike⟩
  · rw [hmemory, hdisk]
    exact .error _
  · rw [hmemory, hdisk]
    obtain ⟨-, -, survives⟩ := h.holds.dataset id d hmemory
    exact .ok (hlike.equal_eq_true fun record hrecord entry hentry =>
      (survives.isFinite record hrecord entry hentry).isOrdered)

theorem query_agrees (h : memory.Mirrors disk tree dir location) (limit : Nat)
    (document : Json) :
    Agree (fun xs ys => List.map Row.text xs = List.map Row.text ys)
      (memory.lookup.query limit document) (disk.lookup.query limit document) := by
  have built : ∀ id d, memory.lookup id = some d → d.Built :=
    fun id d hd => (h.holds.dataset id d hd).2.1
  apply (h.alike.agree_query built limit document).imp
  intro xs ys hrows
  rw [← List.forall₂_eq_eq_eq, List.forall₂_map_left_iff, List.forall₂_map_right_iff]
  exact hrows.imp fun _ _ hrow => hrow.text_eq

end Answers

/-! ### Steps -/

section Steps

theorem insert (h : memory.Mirrors disk tree dir location) {d : Dataset} {after : FileTree}
    (holds : after.Holds dir location fun id => if d.id = id then some d else memory.lookup id) :
    Mirrors { memory with datasets := memory.datasets.insert d.id d }
      { disk with datasets := disk.datasets.insert d.id d } after dir location where
  memoryDir := h.memoryDir
  diskDir := h.diskDir
  holds := by
    have changed : lookup { memory with datasets := memory.datasets.insert d.id d } =
        fun id => if d.id = id then some d else memory.lookup id :=
      funext fun id => Dictionary.find?_insert memory.datasets d.id id d
    rwa [changed]
  alike id := by
    rw [lookup, lookup, Dictionary.find?_insert, Dictionary.find?_insert]
    split
    · exact .some (.refl d)
    · exact h.alike id

theorem erase (h : memory.Mirrors disk tree dir location) {id : String} {after : FileTree}
    (holds : after.Holds dir location
      fun other => if id = other then none else memory.lookup other) :
    Mirrors { memory with datasets := memory.datasets.erase id }
      { disk with datasets := disk.datasets.erase id } after dir location where
  memoryDir := h.memoryDir
  diskDir := h.diskDir
  holds := by
    have changed : lookup { memory with datasets := memory.datasets.erase id } =
        fun other => if id = other then none else memory.lookup other :=
      funext fun other => Dictionary.find?_erase memory.datasets id other
    rwa [changed]
  alike other := by
    rw [lookup, lookup, Dictionary.find?_erase, Dictionary.find?_erase]
    split
    · exact .none
    · exact h.alike other

/-- What follows a step in memory and a step on the directory: their answers agree, and the stores
are mirrors again. -/
structure After (dir : FilePath) (location : Location) (memory : Answer × Store)
    (disk : (Answer × Store) × FileTree) : Prop where
  agrees : memory.1.Agrees disk.1.1
  mirrors : memory.2.Mirrors disk.1.2 disk.2 dir location

variable {d : Dataset} (other : FileTree)

theorem add (h : memory.Mirrors disk tree dir location) (built : d.Built)
    (survives : d.SurvivesText) (hslash : '/' ∉ d.id.toList)
    (calls : ((disk.serve (.add d) : StateM FileTree _) tree).1.1.isIoFailure = false) :
    ∃ reply, (memory.serve (.add d) : StateM FileTree _) other = (reply, other) ∧
      After dir location reply ((disk.serve (.add d) : StateM FileTree _) tree) := by
  have valid := (Dataset.built_iff.1 built).1
  cases taken : disk.datasets.contains d.id with
  | true =>
    rw [run_serve_add (add_of_contains valid taken),
      run_serve_add (add_of_contains valid ((h.contains_eq d.id).trans taken))]
    exact ⟨_, rfl, rfl, h⟩
  | false =>
    have kept : (memory.saveFile d : StateM FileTree _) other = (.ok (), other) := by
      rw [saveFile, h.memoryDir]
      rfl
    rw [run_serve_add (add_of_saveFile valid ((h.contains_eq d.id).trans taken) kept)]
    rcases hsaved : (disk.saveFile d : StateM FileTree _) tree with ⟨result, after⟩
    cases result with
    | error e =>
      rw [run_serve_add (add_of_saveFile_error valid taken hsaved)] at calls
      contradiction
    | ok saved =>
      rw [run_serve_add (add_of_saveFile valid taken hsaved)]
      have mirrors := h.insert (h.holds.of_saveFile built survives hslash h.diskDir hsaved)
      exact ⟨_, rfl, congrArg Answer.ids mirrors.ids_eq, mirrors⟩

theorem remove (h : memory.Mirrors disk tree dir location) (id : String) :
    ∃ reply, (memory.serve (.remove id) : StateM FileTree _) other = (reply, other) ∧
      After dir location reply ((disk.serve (.remove id) : StateM FileTree _) tree) := by
  cases valid : isValidId id with
  | false =>
    rw [run_serve_remove (remove_of_invalid valid), run_serve_remove (remove_of_invalid valid)]
    exact ⟨_, rfl, rfl, h⟩
  | true =>
    cases taken : disk.datasets.contains id with
    | false =>
      rw [run_serve_remove (remove_of_not_contains valid taken),
        run_serve_remove (remove_of_not_contains valid ((h.contains_eq id).trans taken))]
      exact ⟨_, rfl, rfl, h⟩
    | true =>
      have kept : (memory.deleteFile id : StateM FileTree _) other = (.ok (), other) := by
        rw [deleteFile, h.memoryDir]
        rfl
      obtain ⟨d, hd⟩ := Option.isSome_iff_exists.1 ((h.contains_eq id).trans taken)
      rw [run_serve_remove (remove_of_deleteFile valid ((h.contains_eq id).trans taken) kept),
        run_serve_remove (remove_of_deleteFile valid taken (h.holds.deleteFile_eq hd h.diskDir))]
      exact ⟨_, rfl, rfl, h.erase (h.holds.dropNode hd)⟩

/-- A request whose file operations succeed has the same outcome on both stores. -/
theorem serve (h : memory.Mirrors disk tree dir location) {request : Request}
    (storable : request.Storable)
    (calls : ((disk.serve request : StateM FileTree _) tree).1.1.isIoFailure = false) :
    ∃ reply, (memory.serve request : StateM FileTree _) other = (reply, other) ∧
      After dir location reply ((disk.serve request : StateM FileTree _) tree) := by
  cases request with
  | add d => exact h.add other storable.1 storable.2.1 storable.2.2 calls
  | remove id => exact h.remove other id
  | get id =>
    have agree := h.get_agrees id
    rw [Store.serve, Store.serve]
    generalize memory.get id = x, disk.get id = y at agree ⊢
    cases agree with
    | ok hequal => exact ⟨_, rfl, hequal, h⟩
    | error e => exact ⟨_, rfl, rfl, h⟩
  | list => exact ⟨_, rfl, congrArg Answer.summaries h.list_eq, h⟩
  | ids => exact ⟨_, rfl, congrArg Answer.ids h.ids_eq, h⟩
  | size => exact ⟨_, rfl, congrArg Answer.size h.size_eq, h⟩
  | query limit document =>
    have agree := h.query_agrees limit document
    rw [Store.serve, Store.serve]
    generalize memory.lookup.query limit document = x, disk.lookup.query limit document = y
      at agree ⊢
    cases agree with
    | ok hrows => exact ⟨_, rfl, hrows, h⟩
    | error e => exact ⟨_, rfl, rfl, h⟩

/-- Opened again, the store on the directory holds what it held. -/
theorem reopen (h : memory.Mirrors disk tree dir location) :
    ∃ reply, (memory.step .reopen : StateM FileTree _) other = (reply, other) ∧
      After dir location reply ((disk.step .reopen : StateM FileTree _) tree) := by
  obtain ⟨opened, hopened, hdir, alike⟩ := h.holds.openDir_eq
  refine ⟨(.opened, memory), ?_, ?_⟩
  · rw [Store.step, h.memoryDir]
    rfl
  · rw [Store.step, h.diskDir]
    dsimp only
    rw [run_bind, hopened]
    exact ⟨rfl, h.memoryDir, hdir, h.holds, alike⟩

theorem step (h : memory.Mirrors disk tree dir location) {event : Event}
    (storable : event.Storable)
    (calls : ((disk.step event : StateM FileTree _) tree).1.1.isIoFailure = false) :
    ∃ reply, (memory.step event : StateM FileTree _) other = (reply, other) ∧
      After dir location reply ((disk.step event : StateM FileTree _) tree) := by
  cases event with
  | request request => exact h.serve other storable calls
  | reopen => exact h.reopen other

/-- Event by event, the outcomes of a run are the same on both stores. -/
theorem run (h : memory.Mirrors disk tree dir location) {events : List Event}
    (storable : ∀ event ∈ events, event.Storable)
    (calls : ∀ answer ∈ ((disk.run events : StateM FileTree _) tree).1,
      answer.isIoFailure = false) :
    List.Forall₂ Answer.Agrees ((memory.run events : StateM FileTree _) other).1
      ((disk.run events : StateM FileTree _) tree).1 := by
  induction events generalizing memory disk tree with
  | nil => exact .nil
  | cons event events ih =>
    rw [List.forall_mem_cons] at storable
    rw [run_cons, List.forall_mem_cons] at calls
    obtain ⟨reply, hreply, agrees, mirrors⟩ := h.step other storable.1 calls.1
    rw [run_cons, run_cons, hreply]
    exact .cons agrees (ih mirrors storable.2 calls.2)

end Steps

/-! ### Calls that succeed -/

section Calls

theorem add_isIoFailure (h : memory.Mirrors disk tree dir location) {d : Dataset}
    (storable : (Request.add d).Storable) (fits : (Request.add d).Fits dir) :
    ((disk.serve (.add d) : StateM FileTree _) tree).1.1.isIoFailure = false := by
  obtain ⟨built, -, hslash⟩ := storable
  have valid := (Dataset.built_iff.1 built).1
  cases taken : disk.datasets.contains d.id with
  | true =>
    rw [run_serve_add (add_of_contains valid taken)]
    rfl
  | false =>
    have free : memory.lookup d.id = none := by
      rw [← h.contains_eq] at taken
      exact Option.isNone_iff_eq_none.1 (Option.isSome_eq_false_iff.1 taken)
    obtain ⟨after, hsaved⟩ := h.holds.exists_saveFile_eq_ok free hslash fits.1 fits.2 h.diskDir
    rw [run_serve_add (add_of_saveFile valid taken hsaved)]
    rfl

theorem remove_isIoFailure (h : memory.Mirrors disk tree dir location) (id : String) :
    ((disk.serve (.remove id) : StateM FileTree _) tree).1.1.isIoFailure = false := by
  cases valid : isValidId id with
  | false =>
    rw [run_serve_remove (remove_of_invalid valid)]
    rfl
  | true =>
    cases taken : disk.datasets.contains id with
    | false =>
      rw [run_serve_remove (remove_of_not_contains valid taken)]
      rfl
    | true =>
      obtain ⟨d, hd⟩ := Option.isSome_iff_exists.1 ((h.contains_eq id).trans taken)
      rw [run_serve_remove (remove_of_deleteFile valid taken (h.holds.deleteFile_eq hd h.diskDir))]
      rfl

/-- Only the limits of the file system can make a call fail. -/
theorem step_isIoFailure (h : memory.Mirrors disk tree dir location) {event : Event}
    (storable : event.Storable) (fits : event.Fits dir) :
    ((disk.step event : StateM FileTree _) tree).1.1.isIoFailure = false := by
  cases event with
  | reopen =>
    obtain ⟨opened, hopened, -⟩ := h.holds.openDir_eq
    rw [Store.step, h.diskDir]
    dsimp only
    rw [run_bind, hopened]
    rfl
  | request request =>
    cases request with
    | add d => exact h.add_isIoFailure storable fits
    | remove id => exact h.remove_isIoFailure id
    | get id =>
      rw [Store.step, Store.serve, get]
      cases disk.lookup id <;> rfl
    | query limit document =>
      rw [Store.step, Store.serve]
      cases disk.lookup.query limit document <;> rfl
    | _ => rfl

theorem run_isIoFailure (h : memory.Mirrors disk tree dir location) {events : List Event}
    (storable : ∀ event ∈ events, event.Storable) (fits : ∀ event ∈ events, event.Fits dir) :
    ∀ answer ∈ ((disk.run events : StateM FileTree _) tree).1, answer.isIoFailure = false := by
  induction events generalizing memory disk tree with
  | nil => exact fun answer hanswer => absurd hanswer List.not_mem_nil
  | cons event events ih =>
    rw [List.forall_mem_cons] at storable fits
    have calls := h.step_isIoFailure storable.1 fits.1
    obtain ⟨reply, -, -, mirrors⟩ := h.step tree storable.1 calls
    rw [run_cons, List.forall_mem_cons]
    exact ⟨calls, ih mirrors storable.2 fits.2⟩

end Calls

end Mirrors

theorem exists_mirrors {tree : FileTree} {dir : FilePath} (empty : tree.listDir dir = .ok []) :
    ∃ location disk, (openDir dir : StateM FileTree _) tree = (.ok disk, tree) ∧
      inMemory.Mirrors disk tree dir location := by
  obtain ⟨location, holds⟩ := FileTree.exists_holds_empty empty
  obtain ⟨disk, hdisk, hdir, alike⟩ := holds.openDir_eq
  exact ⟨location, disk, hdisk, rfl, hdir, holds, alike⟩

/-- No call of the file system fails while names and paths are within its limits. -/
theorem session_isIoFailure {tree : FileTree} {dir : FilePath} (empty : tree.listDir dir = .ok [])
    {events : List Event} (storable : ∀ event ∈ events, event.Storable)
    (fits : ∀ event ∈ events, event.Fits dir) :
    ∀ answer ∈ ((session dir events : StateM FileTree _) tree).1,
      answer.isIoFailure = false := by
  obtain ⟨location, disk, hdisk, start⟩ := exists_mirrors empty
  rw [session, run_bind, hdisk]
  exact start.run_isIoFailure storable fits

/-- From an empty directory on, a store that is opened on it any number of times answers as a store
in memory does, unless a call of the file system fails. -/
theorem session_refines_run {tree : FileTree} {dir : FilePath} (empty : tree.listDir dir = .ok [])
    {events : List Event} (storable : ∀ event ∈ events, event.Storable)
    (calls : ∀ answer ∈ ((session dir events : StateM FileTree _) tree).1,
      answer.isIoFailure = false) (other : FileTree) :
    List.Forall₂ Answer.Agrees ((inMemory.run events : StateM FileTree _) other).1
      ((session dir events : StateM FileTree _) tree).1 := by
  obtain ⟨location, disk, hdisk, start⟩ := exists_mirrors empty
  rw [session, run_bind, hdisk] at calls ⊢
  exact start.run other storable calls

/-- A dataset with a negative zero is added, read, queried for and removed. -/
def sampleEvents : List Event :=
  [.request (.add ⟨"cs", .courses, sampleSections⟩), .reopen, .request (.get "cs"),
    .request (.query 10 sampleGrouping), .request (.remove "cs"), .reopen, .request .ids]

theorem session_refines_run_sample :
    List.Forall₂ Answer.Agrees
      ((inMemory.run sampleEvents : StateM FileTree _) (.ofWorkingDir [utf8 "data"])).1
      ((session (utf8 "/data") sampleEvents : StateM FileTree _) (.ofWorkingDir [utf8 "data"])).1 := by
  have empty : (FileTree.ofWorkingDir [utf8 "data"]).listDir (utf8 "/data") = .ok [] := rfl
  have survives : Dataset.SurvivesText ⟨"cs", .courses, sampleSections⟩ := by decide +kernel
  have storable : ∀ event ∈ sampleEvents, event.Storable := by
    simp only [sampleEvents, List.forall_mem_cons]
    exact ⟨⟨sampleDatasets_built "cs" _ rfl, survives, by decide⟩, trivial, trivial, trivial, trivial,
      trivial, trivial, by simp⟩
  have fits : ∀ event ∈ sampleEvents, event.Fits (utf8 "/data") := by
    simp only [sampleEvents, List.forall_mem_cons]
    exact ⟨⟨rfl, by decide⟩, trivial, trivial, trivial, trivial, trivial, trivial, by simp⟩
  exact session_refines_run empty storable (session_isIoFailure empty storable fits) _

end Store

end CampusQuery
