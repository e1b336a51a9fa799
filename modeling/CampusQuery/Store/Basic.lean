import CampusQuery.Query.Engine
import CampusQuery.Store.Codec
import CampusQuery.Store.Files

/-!
Stores of datasets. A store on a directory keeps the dataset of each id in the file `<id>.json`
and is what the files say when it is opened; a store in memory keeps nothing.
-/

namespace CampusQuery

inductive StoreError where
  /-- The dataset or its id is not one. -/
  | rejected (error : DatasetError)
  | alreadyExists (id : String)
  | notFound (id : String)
  | io (error : FileError)

namespace StoreError

def code : StoreError → String
  | .notFound _ => QueryErrorCode.notFound.text
  | .io _ => "INSIGHT_IO_ERROR"
  | _ => QueryErrorCode.invalidInput.text

/-- The message without the words of the file system. -/
def headline : StoreError → String
  | .rejected error => error.message
  | .alreadyExists id => "Dataset already exists: " ++ id
  | .notFound id => "Dataset not found: " ++ id
  | .io _ => "I/O error"

def message : StoreError → String
  | .io error => headline (.io error) ++ ": " ++ error.message
  | e => e.headline

/-- The error as a query reports it. -/
def toQueryError : StoreError → QueryError
  | .notFound id => .datasetNotFound id
  | e => .invalidInput e.message

end StoreError

structure Store where
  /-- A store in memory has no directory. -/
  dir : Option FilePath
  datasets : Dictionary Dataset

namespace Store

def inMemory : Store := ⟨none, .empty⟩

/-- The file of an id. -/
def fileName (id : String) : FileName :=
  utf8 (id ++ ".json")

/-- The name without its extension, if that is `.json`; a dot at the start does not begin one. -/
def stem? (name : FileName) : Option FileName :=
  let extension := utf8 ".json"
  if extension.isSuffixOf name ∧ extension.length < name.length then
    some (name.take (name.length - extension.length))
  else none

def lookup (store : Store) : Datasets :=
  fun id => store.datasets.find? id

/-- All ids, ascending. -/
def ids (store : Store) : List String :=
  store.datasets.names

def size (store : Store) : Nat :=
  store.datasets.size

/-- The summaries in the order of the ids. -/
def list (store : Store) : List DatasetSummary :=
  store.datasets.values.map Dataset.summary

def get (store : Store) (id : String) : Except StoreError Dataset :=
  match store.lookup id with
  | some dataset => .ok dataset
  | none => .error (.notFound id)

section

variable {m : Type → Type} [Monad m] [Files m]

/-- The dataset of a file; a file that cannot be read holds none. -/
def loadFile (path : FilePath) : m (Option Dataset) := do
  match ← Files.readFile path with
  | .ok bytes => return Dataset.decode? bytes
  | .error _ => return none

/-- Adds the dataset of a file whose name says the id that it holds. A stem that is no text says the
empty id, which no dataset has. -/
def loadEntry (dir : FilePath) (datasets : Dictionary Dataset) (name : FileName) :
    m (Dictionary Dataset) := do
  match stem? name with
  | none => return datasets
  | some stem =>
    let id := (textOfUtf8? stem).getD ""
    match ← loadFile (joinPath dir name) with
    | none => return datasets
    | some dataset =>
      return if dataset.id = id then datasets.insert dataset.id dataset else datasets

/-- Opens a store on a directory, which is made if it is missing. -/
def openDir (dir : FilePath) : m (Except StoreError Store) := do
  match ← Files.createDirs dir with
  | .error e => return .error (.io e)
  | .ok () =>
    match ← Files.listDir dir with
    | .error e => return .error (.io e)
    | .ok names => return .ok ⟨some dir, ← names.foldlM (loadEntry dir) .empty⟩

/-- Writes the dataset's file, if the store has a directory. -/
def saveFile (store : Store) (dataset : Dataset) : m (Except FileError Unit) :=
  match store.dir with
  | none => return .ok ()
  | some dir => Files.writeFile (joinPath dir (fileName dataset.id)) dataset.encode

/-- Removes the file of an id, if there is one. -/
def deleteFile (store : Store) (id : String) : m (Except FileError Unit) :=
  match store.dir with
  | none => return .ok ()
  | some dir => do
    let path := joinPath dir (fileName id)
    if ← Files.pathExists path then Files.removeFile path else return .ok ()

/-- Adds a dataset under an id that is free, and gives all ids. The store comes back whatever the
result is; the dataset is in it once its file is written. -/
def add (store : Store) (dataset : Dataset) : m (Except StoreError (List String) × Store) := do
  if !isValidId dataset.id then return (.error (.rejected (.invalidId dataset.id)), store)
  else if store.datasets.contains dataset.id then
    return (.error (.alreadyExists dataset.id), store)
  else
    match ← store.saveFile dataset with
    | .error e => return (.error (.io e), store)
    | .ok () =>
      let next := { store with datasets := store.datasets.insert dataset.id dataset }
      return (.ok next.ids, next)

/-- Removes the dataset of an id, once its file is gone, and gives the id. -/
def remove (store : Store) (id : String) : m (Except StoreError String × Store) := do
  if !isValidId id then return (.error (.rejected (.invalidId id)), store)
  else if !store.datasets.contains id then return (.error (.notFound id), store)
  else
    match ← store.deleteFile id with
    | .error e => return (.error (.io e), store)
    | .ok () => return (.ok id, { store with datasets := store.datasets.erase id })

end

end Store

end CampusQuery
