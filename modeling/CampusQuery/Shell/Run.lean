import CampusQuery.Shell.Arguments
import CampusQuery.Shell.Config

/-!
Commands. Each reads the configuration, opens the store on its directory and gives one response.
-/

namespace CampusQuery

/-- The program's name and version. -/
def versionLine : String := "insightdb 0.1.0"

inductive Response where
  | ok (data : Json)
  | error (code message : String)

namespace Response

def toJson : Response → Json
  | .ok data => .ofMembers [("status", .string "ok"), ("data", data)]
  | .error code message =>
    .ofMembers [("status", .string "error"), ("code", .string code), ("message", .string message)]

/-- The line that is printed. -/
def line (response : Response) : String :=
  response.toJson.compact ++ "\n"

end Response

/-- The row as a document, whose members are in ascending order and each there once. -/
def Row.document (row : Row) : Json :=
  .ofMembers (row.cells.map fun cell => (cell.1, cell.2.toJson))

/-- How a run of the program ends. -/
inductive Outcome where
  | response (response : Response)
  | failure (error : ShellError)
  | usage (error : UsageError)
  | version
  | help

/-- The bytes up to the first line feed, which is kept. -/
def firstLine (bytes : ByteArray) : ByteArray :=
  match bytes.toList.findIdx? (· = 10) with
  | some index => bytes.extract 0 (index + 1)
  | none => bytes

/-- The document of the first line of the input. -/
def requestOfInput (bytes : ByteArray) : Except ShellError Json :=
  match String.fromUTF8? (firstLine bytes) with
  | none => .error (.inputUnreadable .notText)
  | some line =>
    if isBlank line then .error .inputEmpty
    else
      match Json.parse? line with
      | some request => .ok request
      | none => .error .documentMalformed

section

variable {m : Type → Type} [Monad m] [Files m]

/-- Reads a file and what its text stands for. -/
def readDocument (read : String → Option α) (path : String) : m (Except ShellError α) := do
  match ← readText (utf8 path) with
  | .error e => return .error (.fileUnreadable path e)
  | .ok text =>
    match read text with
    | some value => return .ok value
    | none => return .error .documentMalformed

/-- Goes on with the store of the configuration. -/
def withStore (config : Config) (act : Store → m (Except ShellError α)) :
    m (Except ShellError α) := do
  match ← Store.openDir (utf8 config.dataDir) with
  | .error e => return .error (.store e)
  | .ok store => act store

/-- Answers a query document from the data directory. -/
def answerQuery (config : Config) (request : Json) : m (Except ShellError Json) :=
  withStore config fun store =>
    match store.lookup.query config.maxResults request with
    | .ok rows => return .ok (.array (rows.map Row.document))
    | .error e => return .error (.query e)

def answerList (config : Config) : m (Except ShellError Json) :=
  withStore config fun store => return .ok (.array (store.list.map DatasetSummary.toJson))

/-- Adds the records of a file as a dataset. -/
def answerAdd (config : Config) (id : String) (kind : SchemaKind) (file : String) :
    m (Except ShellError Json) := do
  match ← readDocument (fun text => (RawJson.parse? text).bind recordsOfRaw?) file with
  | .error e => return .error e
  | .ok records =>
    match Dataset.build id kind records with
    | .error e => return .error (.store (.rejected e))
    | .ok dataset =>
      withStore config fun store => do
        match (← store.add dataset).1 with
        | .error e => return .error (.store e)
        | .ok ids => return .ok (.array (ids.map .string))

def answerRemove (config : Config) (id : String) : m (Except ShellError Json) :=
  withStore config fun store => do
    match (← store.remove id).1 with
    | .error e => return .error (.store e)
    | .ok removed => return .ok (.string removed)

/-- Runs a command; the input is read only by a query without a file. -/
def Command.run (config : Config) (input : m ByteArray) : Command → m (Except ShellError Json)
  | .query _ file => do
    let request ← match file with
      | some path => readDocument Json.parse? path
      | none => pure (requestOfInput (← input))
    match request with
    | .error e => return .error e
    | .ok request => answerQuery config request
  | .listDatasets _ => answerList config
  | .addDataset _ id kind file => answerAdd config id kind file
  | .removeDataset _ id => answerRemove config id

/-- An error of a query or a store is a response. -/
def Outcome.ofResult : Except ShellError Json → Outcome
  | .ok data => .response (.ok data)
  | .error e => if e.isResponse then .response (.error e.code e.message) else .failure e

/-- Runs a command line. -/
def runArguments (arguments : List String) (input : m ByteArray) : m Outcome := do
  match Invocation.ofArguments arguments with
  | .error e => return .usage e
  | .ok .version => return .version
  | .ok .help => return .help
  | .ok (.run command) =>
    match ← Config.load command.config with
    | .error e => return .failure e
    | .ok config => return .ofResult (← command.run config input)

end

end CampusQuery
