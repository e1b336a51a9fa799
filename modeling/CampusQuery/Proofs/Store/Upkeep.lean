import CampusQuery.Proofs.Store.Footprint
import CampusQuery.Proofs.Store.Loading
import CampusQuery.Proofs.Text.Bytes

/-!
What every store keeps. Main statement: however a store came about and whatever its files do, each
of its datasets passed the check and stands under its own id, listings agree with the ids, and a
call adds one id, removes one or leaves the store.
-/

namespace CampusQuery

/-- A dataset comes to a store only after its check. -/
def Request.Checked : Request → Prop
  | .add d => d.Built
  | _ => True

def Request.isChange : Request → Bool
  | .add _ | .remove _ => true
  | _ => false

namespace Store

/-- Every dataset passed the check and stands under its own id. -/
def Holds (datasets : Dictionary Dataset) : Prop :=
  ∀ id d, datasets.find? id = some d → d.id = id ∧ d.Built

theorem holds_empty : Holds .empty := nofun

theorem Holds.insert {datasets : Dictionary Dataset} {d : Dataset} (h : Holds datasets)
    (built : d.Built) : Holds (datasets.insert d.id d) := by
  intro id e found
  rw [Dictionary.find?_insert] at found
  split at found
  · next hid =>
    obtain rfl := Option.some.inj found
    exact ⟨hid, built⟩
  · exact h id e found

theorem Holds.erase {datasets : Dictionary Dataset} (h : Holds datasets) (id : String) :
    Holds (datasets.erase id) := by
  intro other d found
  rw [Dictionary.find?_erase] at found
  split at found
  · contradiction
  · exact h other d found

section Calls

variable {σ : Type} [Files (StateM σ)] {store : Store} {before after : σ} {d : Dataset}

theorem built_of_loadFile {path : FilePath}
    (h : ((loadFile path : StateM σ _) before).1 = some d) : d.Built := by
  rw [loadFile, run_bind] at h
  cases hread : ((Files.readFile path : StateM σ _) before).1 with
  | error e =>
    rw [hread] at h
    cases h
  | ok bytes =>
    rw [hread] at h
    exact (Dataset.decode?_eq_some_iff.1 h).built

theorem Holds.loadEntry {datasets : Dictionary Dataset} (h : Holds datasets) (dir : FilePath)
    (name : FileName) (state : σ) : Holds ((loadEntry dir datasets name : StateM σ _) state).1 := by
  rw [Store.loadEntry]
  cases stem? name with
  | none => exact h
  | some stem =>
    dsimp only
    rw [run_bind]
    cases hfile : ((loadFile (joinPath dir name) : StateM σ _) state).1 with
    | none => exact h
    | some d =>
      dsimp only
      rw [run_pure]
      dsimp only
      split
      · exact h.insert (built_of_loadFile hfile)
      · exact h

theorem Holds.foldlM (dir : FilePath) (names : List FileName) {datasets : Dictionary Dataset}
    (h : Holds datasets) (state : σ) :
    Holds ((names.foldlM (Store.loadEntry dir) datasets : StateM σ _) state).1 := by
  induction names generalizing datasets state with
  | nil => exact h
  | cons name names ih =>
    rw [List.foldlM_cons, run_bind]
    exact ih (h.loadEntry dir name state) _

/-- What the files hold does not matter: a file that fails the check adds nothing. -/
theorem holds_of_openDir {dir : FilePath}
    (h : (openDir dir : StateM σ _) before = (.ok store, after)) : Holds store.datasets := by
  rw [openDir, run_bind] at h
  cases hmade : ((Files.createDirs dir : StateM σ _) before).1 with
  | error e =>
    rw [hmade] at h
    cases h
  | ok =>
    rw [hmade] at h
    dsimp only at h
    rw [run_bind] at h
    cases hnames : ((Files.listDir dir : StateM σ _)
        ((Files.createDirs dir : StateM σ _) before).2).1 with
    | error e =>
      rw [hnames] at h
      cases h
    | ok names =>
      rw [hnames] at h
      cases h
      exact holds_empty.foldlM dir names _

end Calls

/-- The stores that a run comes to. Between two calls the files may change in any way. -/
inductive Reached (σ : Type) [Files (StateM σ)] : Store → Prop where
  | inMemory : Reached σ .inMemory
  | opened {dir : FilePath} {store : Store} {before after : σ}
    (h : (openDir dir : StateM σ _) before = (.ok store, after)) : Reached σ store
  | served {store : Store} (request : Request) (state : σ) (h : Reached σ store)
    (checked : request.Checked) : Reached σ ((store.serve request : StateM σ _) state).1.2

/-- A store in order: what it holds is checked, and its listings are of what it holds. -/
structure Orderly (store : Store) : Prop where
  own : ∀ key d, store.lookup key = some d → d.id = key
  named : ∀ key d, store.lookup key = some d → isBlank key = false ∧ '_' ∉ key.toList
  wellFormed : ∀ key d, store.lookup key = some d → ∀ record ∈ d.records, record.WellFormed d.kind
  ascending : store.ids.Pairwise fun a b => utf8 a < utf8 b
  mem_ids : ∀ key, key ∈ store.ids ↔ ∃ d, store.lookup key = some d
  size : store.size = store.ids.length
  list_ids : store.list.map (·.id) = store.ids
  list_rows : ∀ summary ∈ store.list, ∃ d, store.lookup summary.id = some d ∧
    summary.kind = d.kind ∧ summary.rowCount = d.records.length

/-- What a call makes of a store. -/
inductive Follows (store : Store) : Request → Answer → Store → Prop where
  | added {d : Dataset} {next : Store} (absent : store.lookup d.id = none)
    (ids : next.ids.Perm (d.id :: store.ids))
    (lookup : ∀ key, next.lookup key = if d.id = key then some d else store.lookup key) :
    Follows store (.add d) (.ids next.ids) next
  | removed {id : String} {next : Store} (present : ∃ d, store.lookup id = some d)
    (ids : store.ids.Perm (id :: next.ids))
    (lookup : ∀ key, next.lookup key = if id = key then none else store.lookup key) :
    Follows store (.remove id) (.removed id) next
  | refused {request : Request} (e : StoreError) : Follows store request (.refused e) store
  | read {request : Request} {answer : Answer} (reads : request.isChange = false) :
    Follows store request answer store

theorem Holds.find?_of_mem {datasets : Dictionary Dataset} (h : Holds datasets)
    {entry : String × Dataset} (hentry : entry ∈ datasets.entries) :
    datasets.find? entry.2.id = some entry.2 ∧ entry.2.id = entry.1 := by
  have found := Entries.find?_of_mem datasets.ascending.nodup hentry
  obtain ⟨hid, -⟩ := h _ _ found
  rw [hid]
  exact ⟨found, rfl⟩

theorem Holds.orderly {store : Store} (h : Holds store.datasets) : Orderly store where
  own key d found := (h key d found).1
  named key d found := by
    obtain ⟨rfl, built⟩ := h key d found
    simpa [isValidId] using (Dataset.built_iff.1 built).1
  wellFormed key d found := (Dataset.built_iff.1 (h key d found).2).2
  ascending := by
    rw [ids, Dictionary.names, List.pairwise_map]
    exact store.datasets.ascending.imp lt_iff_utf8_lt.1
  mem_ids key := by
    rw [ids, Dictionary.names, ← Entries.find?_isSome_iff, Option.isSome_iff_exists]
    rfl
  size := (List.length_map _).symm
  list_ids := by
    rw [list, Dictionary.values, ids, Dictionary.names, List.map_map, List.map_map]
    exact List.map_congr_left fun entry hentry => (h.find?_of_mem hentry).2
  list_rows summary hsummary := by
    obtain ⟨d, hd, rfl⟩ := List.mem_map.1 hsummary
    obtain ⟨entry, hentry, rfl⟩ := List.mem_map.1 hd
    exact ⟨entry.2, (h.find?_of_mem hentry).1, rfl, rfl⟩

theorem Follows.holds {store next : Store} {request : Request} {answer : Answer}
    (follows : store.Follows request answer next) (h : Holds store.datasets)
    (checked : request.Checked) : Holds next.datasets := by
  cases follows with
  | @added d next absent ids lookup =>
    intro key e found
    rw [show next.datasets.find? key = _ from lookup key] at found
    split at found
    · next hkey =>
      obtain rfl := Option.some.inj found
      exact ⟨hkey, checked⟩
    · exact h key e found
  | @removed id next present ids lookup =>
    intro key e found
    rw [show next.datasets.find? key = _ from lookup key] at found
    split at found
    · contradiction
    · exact h key e found
  | refused e => exact h
  | read reads => exact h

section Runs

variable {σ : Type} [Files (StateM σ)] {store : Store}

theorem serve_follows (store : Store) (request : Request) (state : σ) :
    store.Follows request ((store.serve request : StateM σ _) state).1.1
      ((store.serve request : StateM σ _) state).1.2 := by
  cases request with
  | add d =>
    rcases add_cases store d state with
      ⟨e, refused⟩ | ⟨e, after, -, refused⟩ | ⟨absent, after, -, added⟩
    · rw [run_serve_add refused]
      exact .refused e
    · rw [run_serve_add refused]
      exact .refused (.io e)
    · rw [run_serve_add added]
      exact .added absent (Dictionary.perm_names_insert d absent)
        fun key => store.datasets.find?_insert d.id key d
  | remove id =>
    rcases remove_cases store id state with
      ⟨e, refused⟩ | ⟨e, after, -, refused⟩ | ⟨⟨d, present⟩, after, -, removed⟩
    · rw [run_serve_remove refused]
      exact .refused e
    · rw [run_serve_remove refused]
      exact .refused (.io e)
    · rw [run_serve_remove removed]
      exact .removed ⟨d, present⟩ (Dictionary.perm_names_erase present)
        fun key => store.datasets.find?_erase id key
  | get id =>
    rw [serve]
    cases store.get id <;> exact .read rfl
  | list => exact .read rfl
  | ids => exact .read rfl
  | size => exact .read rfl
  | query limit document =>
    rw [serve]
    cases store.lookup.query limit document <;> exact .read rfl

theorem Reached.holds (h : Reached σ store) : Holds store.datasets := by
  induction h with
  | inMemory => exact holds_empty
  | opened h => exact holds_of_openDir h
  | served request state _ checked ih => exact (serve_follows _ request state).holds ih checked

/-- Along every run the store is in order, and each call does what it answers. -/
theorem reached_orderly (h : Reached σ store) : Orderly store ∧
    ∀ (request : Request) (state : σ),
      store.Follows request ((store.serve request : StateM σ _) state).1.1
        ((store.serve request : StateM σ _) state).1.2 :=
  ⟨h.holds.orderly, serve_follows store⟩

/-- A directory with files of all sorts is opened and a dataset is added. -/
theorem reached_orderly_sample : ∃ store,
    (openDir (utf8 "data") : StateM FileTree _) sampleDirectory = (.ok store, sampleDirectory) ∧
      Orderly ((store.serve (.add (noRooms "a")) : StateM FileTree _) sampleDirectory).1.2 := by
  obtain ⟨-, store, opened, -, -⟩ := exists_openDir sampleDirectory_hasDir
  have reached : Reached FileTree _ :=
    .served (.add (noRooms "a")) sampleDirectory (.opened opened) (rfl : (noRooms "a").Built)
  exact ⟨store, opened, (reached_orderly reached).1⟩

end Runs

end Store

end CampusQuery
