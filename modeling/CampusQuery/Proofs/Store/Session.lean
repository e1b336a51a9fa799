import CampusQuery.Proofs.Store.Reopen

/-!
Sessions: a store is asked for things and opened again, in any order. An event has an answer and
leaves a store for the next one.
-/

namespace CampusQuery

/-- What is asked of a store. -/
inductive Request where
  | add (dataset : Dataset)
  | remove (id : String)
  | get (id : String)
  | list
  | ids
  | size
  | query (limit : Nat) (document : Json)

inductive Event where
  | request (request : Request)
  /-- The store is dropped and its directory opened. -/
  | reopen

inductive Answer where
  | ids (ids : List String)
  | removed (id : String)
  | dataset (dataset : Dataset)
  | summaries (summaries : List DatasetSummary)
  | size (size : Nat)
  | rows (rows : List Row)
  | opened
  | refused (error : StoreError)
  | queryRefused (error : QueryError)

namespace Answer

/-- A call of the file system failed. -/
def isIoFailure : Answer → Bool
  | .refused (.io _) => true
  | _ => false

/-- The same outcome: datasets that are equal, rows of the same texts, and else the same answer. -/
def Agrees : Answer → Answer → Prop
  | .dataset d, .dataset e => d.equal e = true
  | .rows xs, .rows ys => xs.map Row.text = ys.map Row.text
  | a, b => a = b

end Answer

namespace Store

/-- The answer to a change, beside the store that it left. -/
def answered {α : Type} (answer : α → Answer) : Except StoreError α × Store → Answer × Store
  | (.ok done, next) => (answer done, next)
  | (.error e, next) => (.refused e, next)

section

variable {m : Type → Type} [Monad m] [Files m]

def serve (store : Store) : Request → m (Answer × Store)
  | .add dataset => return answered .ids (← store.add dataset)
  | .remove id => return answered .removed (← store.remove id)
  | .get id =>
    match store.get id with
    | .ok dataset => return (.dataset dataset, store)
    | .error e => return (.refused e, store)
  | .list => return (.summaries store.list, store)
  | .ids => return (.ids store.ids, store)
  | .size => return (.size store.size, store)
  | .query limit document =>
    match store.lookup.query limit document with
    | .ok rows => return (.rows rows, store)
    | .error e => return (.queryRefused e, store)

/-- A store in memory has nothing to be opened from and stays. -/
def step (store : Store) : Event → m (Answer × Store)
  | .request request => store.serve request
  | .reopen =>
    match store.dir with
    | none => return (.opened, store)
    | some dir => do
      match ← openDir dir with
      | .ok next => return (.opened, next)
      | .error e => return (.refused e, store)

def run (store : Store) : List Event → m (List Answer)
  | [] => return []
  | event :: events => do
    let (answer, next) ← store.step event
    return answer :: (← next.run events)

/-- A session with a directory; the answer to its opening is not among the answers. -/
def session (dir : FilePath) (events : List Event) : m (List Answer) := do
  match ← openDir dir with
  | .ok store => store.run events
  | .error e => return [.refused e]

end

theorem run_cons {store : Store} {tree : FileTree} (event : Event) (events : List Event) :
    ((store.run (event :: events) : StateM FileTree _) tree).1 =
      let reply := (store.step event : StateM FileTree _) tree
      reply.1.1 :: ((reply.1.2.run events : StateM FileTree _) reply.2).1 := rfl

/-! ### Changes -/

section Changes

variable {σ : Type} [Files (StateM σ)] {store next : Store} {state after : σ} {d : Dataset}
  {id : String} {e : FileError}

theorem run_serve_add {result : Except StoreError (List String)}
    (h : (store.add d : StateM σ _) state = ((result, next), after)) :
    (store.serve (.add d) : StateM σ _) state = (answered .ids (result, next), after) := by
  rw [serve, run_bind, h, run_pure]

theorem run_serve_remove {result : Except StoreError String}
    (h : (store.remove id : StateM σ _) state = ((result, next), after)) :
    (store.serve (.remove id) : StateM σ _) state = (answered .removed (result, next), after) := by
  rw [serve, run_bind, h, run_pure]

theorem add_of_invalid (invalid : isValidId d.id = false) :
    (store.add d : StateM σ _) state = ((.error (.rejected (.invalidId d.id)), store), state) := by
  rw [add, invalid]
  rfl

theorem add_of_contains (valid : isValidId d.id = true)
    (taken : store.datasets.contains d.id = true) :
    (store.add d : StateM σ _) state = ((.error (.alreadyExists d.id), store), state) := by
  rw [add, valid, taken]
  rfl

theorem add_of_saveFile (valid : isValidId d.id = true)
    (free : store.datasets.contains d.id = false)
    (saved : (store.saveFile d : StateM σ _) state = (.ok (), after)) :
    (store.add d : StateM σ _) state =
      let next : Store := { store with datasets := store.datasets.insert d.id d }
      ((.ok next.ids, next), after) := by
  rw [add, valid, free]
  change (store.saveFile d >>= _ : StateM σ _) state = _
  rw [run_bind, saved]
  rfl

theorem add_of_saveFile_error (valid : isValidId d.id = true)
    (free : store.datasets.contains d.id = false)
    (failed : (store.saveFile d : StateM σ _) state = (.error e, after)) :
    (store.add d : StateM σ _) state = ((.error (.io e), store), after) := by
  rw [add, valid, free]
  change (store.saveFile d >>= _ : StateM σ _) state = _
  rw [run_bind, failed]
  rfl

theorem remove_of_invalid (invalid : isValidId id = false) :
    (store.remove id : StateM σ _) state =
      ((.error (.rejected (.invalidId id)), store), state) := by
  rw [remove, invalid]
  rfl

theorem remove_of_not_contains (valid : isValidId id = true)
    (free : store.datasets.contains id = false) :
    (store.remove id : StateM σ _) state = ((.error (.notFound id), store), state) := by
  rw [remove, valid, free]
  rfl

theorem remove_of_deleteFile (valid : isValidId id = true)
    (taken : store.datasets.contains id = true)
    (deleted : (store.deleteFile id : StateM σ _) state = (.ok (), after)) :
    (store.remove id : StateM σ _) state =
      ((.ok id, { store with datasets := store.datasets.erase id }), after) := by
  rw [remove, valid, taken]
  change (store.deleteFile id >>= _ : StateM σ _) state = _
  rw [run_bind, deleted]
  rfl

theorem remove_of_deleteFile_error (valid : isValidId id = true)
    (taken : store.datasets.contains id = true)
    (failed : (store.deleteFile id : StateM σ _) state = (.error e, after)) :
    (store.remove id : StateM σ _) state = ((.error (.io e), store), after) := by
  rw [remove, valid, taken]
  change (store.deleteFile id >>= _ : StateM σ _) state = _
  rw [run_bind, failed]
  rfl

/-- An addition is refused before a file is written, fails with the write, or writes the file and has
the dataset. Only then is the store another one. -/
theorem add_cases (store : Store) (d : Dataset) (state : σ) :
    (∃ e, (store.add d : StateM σ _) state = ((.error e, store), state)) ∨
      (∃ e after, (store.saveFile d : StateM σ _) state = (.error e, after) ∧
        (store.add d : StateM σ _) state = ((.error (.io e), store), after)) ∨
      store.lookup d.id = none ∧
        ∃ after, (store.saveFile d : StateM σ _) state = (.ok (), after) ∧
          (store.add d : StateM σ _) state =
            let next : Store := { store with datasets := store.datasets.insert d.id d }
            ((.ok next.ids, next), after) := by
  cases valid : isValidId d.id with
  | false => exact .inl ⟨_, add_of_invalid valid⟩
  | true =>
    cases taken : store.datasets.contains d.id with
    | true => exact .inl ⟨_, add_of_contains valid taken⟩
    | false =>
      cases saved : (store.saveFile d : StateM σ _) state with
      | mk result after =>
        cases result with
        | error e => exact .inr (.inl ⟨e, after, rfl, add_of_saveFile_error valid taken saved⟩)
        | ok =>
          have absent : store.lookup d.id = none :=
            Option.isNone_iff_eq_none.1 (Option.isSome_eq_false_iff.1 taken)
          exact .inr (.inr ⟨absent, after, rfl, add_of_saveFile valid taken saved⟩)

/-- A removal is refused before a file is deleted, fails with the deletion, or deletes the file, if
it is there, and forgets the dataset. Only then is the store another one. -/
theorem remove_cases (store : Store) (id : String) (state : σ) :
    (∃ e, (store.remove id : StateM σ _) state = ((.error e, store), state)) ∨
      (∃ e after, (store.deleteFile id : StateM σ _) state = (.error e, after) ∧
        (store.remove id : StateM σ _) state = ((.error (.io e), store), after)) ∨
      (∃ d, store.lookup id = some d) ∧
        ∃ after, (store.deleteFile id : StateM σ _) state = (.ok (), after) ∧
          (store.remove id : StateM σ _) state =
            ((.ok id, { store with datasets := store.datasets.erase id }), after) := by
  cases valid : isValidId id with
  | false => exact .inl ⟨_, remove_of_invalid valid⟩
  | true =>
    cases taken : store.datasets.contains id with
    | false => exact .inl ⟨_, remove_of_not_contains valid taken⟩
    | true =>
      cases deleted : (store.deleteFile id : StateM σ _) state with
      | mk result after =>
        cases result with
        | error e => exact .inr (.inl ⟨e, after, rfl, remove_of_deleteFile_error valid taken deleted⟩)
        | ok =>
          exact .inr (.inr ⟨Option.isSome_iff_exists.1 taken, after, rfl,
            remove_of_deleteFile valid taken deleted⟩)

end Changes

end Store

end CampusQuery
