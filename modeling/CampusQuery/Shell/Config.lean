import CampusQuery.Shell.Error

/-!
Configuration files: an object of `data_dir`, `max_results` and `log_level`, of which only the
first is required, or an array of these in order.
-/

namespace CampusQuery

structure Config where
  /-- The directory of the datasets. -/
  dataDir : String
  /-- The most rows that a query returns. -/
  maxResults : Nat
  logLevel : String
  deriving DecidableEq

namespace Config

def defaultLogLevel : String := "warn"

/-- A part that is left out has its default; one that is there must be readable. -/
def optional (read : RawJson → Option α) (default : α) : Option RawJson → Option α
  | none => some default
  | some raw => read raw

def ofParts? (dataDir maxResults logLevel : Option RawJson) : Option Config := do
  let dataDir ← (← dataDir).string?
  let maxResults ← optional RawJson.unsigned64? defaultLimit maxResults
  let logLevel ← optional RawJson.string? defaultLogLevel logLevel
  return ⟨dataDir, maxResults, logLevel⟩

def ofRaw? : RawJson → Option Config
  | .array [dataDir] => ofParts? dataDir none none
  | .array [dataDir, maxResults] => ofParts? dataDir maxResults none
  | .array [dataDir, maxResults, logLevel] => ofParts? dataDir maxResults logLevel
  | .object members => do
    let found ← RawJson.select? ["data_dir", "max_results", "log_level"] members
    ofParts? (found.find? "data_dir") (found.find? "max_results") (found.find? "log_level")
  | _ => none

/-- The first setting that makes no sense. -/
def check (config : Config) : Except ShellError Config :=
  if isBlank config.dataDir then .error .dataDirEmpty
  else if config.maxResults = 0 then .error .limitZero
  else if isBlank config.logLevel then .error .logLevelEmpty
  else .ok config

def ofText (text : String) : Except ShellError Config :=
  match (RawJson.parse? text).bind ofRaw? with
  | some config => config.check
  | none => .error .configMalformed

/-- Reads a configuration file. -/
def load [Monad m] [Files m] (path : String) : m (Except ShellError Config) := do
  match ← readText (utf8 path) with
  | .ok text => return ofText text
  | .error e => return .error (.configUnreadable e)

end Config

end CampusQuery
