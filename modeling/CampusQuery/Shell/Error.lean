import CampusQuery.Store.Basic

/-!
Errors of a command. Those of a query or a store are answered; the others end the program.
-/

namespace CampusQuery

inductive ShellError where
  | configUnreadable (error : FileError)
  | configMalformed
  | dataDirEmpty
  | limitZero
  | logLevelEmpty
  | inputEmpty
  | inputUnreadable (error : FileError)
  | documentMalformed
  | fileUnreadable (path : String) (error : FileError)
  | query (error : QueryError)
  | store (error : StoreError)
  /-- Reasons that come from outside. -/
  | config (reason : String)
  | io (reason : String)

namespace ShellError

def configCode : String := "INSIGHT_CLI_CONFIG_ERROR"

def ioCode : String := "INSIGHT_CLI_IO_ERROR"

def code : ShellError → String
  | .configUnreadable _ => configCode
  | .configMalformed => configCode
  | .dataDirEmpty => configCode
  | .limitZero => configCode
  | .logLevelEmpty => configCode
  | .config _ => configCode
  | .inputEmpty => ioCode
  | .inputUnreadable _ => ioCode
  | .documentMalformed => ioCode
  | .fileUnreadable _ _ => ioCode
  | .io _ => ioCode
  | .query error => error.code.text
  | .store error => error.code

/-- The message without the words of the file system. -/
def headline : ShellError → String
  | .configUnreadable _ => "Failed to read config"
  | .configMalformed => "Invalid config JSON"
  | .dataDirEmpty => "data_dir must not be empty"
  | .limitZero => "max_results must be > 0"
  | .logLevelEmpty => "log_level must not be empty"
  | .inputEmpty => "Empty input"
  | .inputUnreadable error => error.message
  | .documentMalformed => "JSON error"
  | .fileUnreadable path _ => "Failed to read " ++ path
  | .query error => error.located
  | .store error => error.headline
  | .config reason => reason
  | .io reason => reason

def message : ShellError → String
  | .configUnreadable error => headline (.configUnreadable error) ++ ": " ++ error.message
  | .fileUnreadable path error => headline (.fileUnreadable path error) ++ ": " ++ error.message
  | .store error => error.message
  | e => e.headline

/-- Whether the error is answered. -/
def isResponse : ShellError → Bool
  | .query _ => true
  | .store _ => true
  | _ => false

def display (e : ShellError) : String :=
  e.code ++ ": " ++ e.message

end ShellError

end CampusQuery
