import CampusQuery.Shell.Run

/-! The program. -/

namespace CampusQuery

/-- What the system says of a failed operation. -/
def catchFile (act : IO α) : IO (Except FileError α) := do
  try
    return .ok (← act)
  catch e =>
    return .error (.other (toString e))

/-- The system is asked for paths that are texts. -/
def pathText (path : FilePath) : IO String :=
  match textOfUtf8? path with
  | some text => pure text
  | none => throw (IO.userError "path is no text")

instance : Files IO where
  readFile path := catchFile do IO.FS.readBinFile (← pathText path)
  writeFile path content := catchFile do IO.FS.writeBinFile (← pathText path) content
  removeFile path := catchFile do IO.FS.removeFile (← pathText path)
  pathExists path := do
    try
      (← IO.FS.realPath (← pathText path)).pathExists
    catch _ =>
      return false
  createDirs path := catchFile do
    if path = [] then pure () else IO.FS.createDirAll (← pathText path)
  listDir path := catchFile do
    let dir ← IO.FS.realPath (← pathText path)
    let entries ← dir.readDir
    return entries.toList.map fun entry => utf8 entry.fileName

/-- Reads standard input up to a line feed. -/
partial def readLine (input : IO.FS.Stream) (bytes : ByteArray) : IO ByteArray := do
  let next ← input.read 1
  if next.isEmpty then return bytes
  else if next.toList = [10] then return bytes ++ next
  else readLine input (bytes ++ next)

def usageText : String :=
  "Usage: insightdb query [--config <path>] [--file <path>]\n" ++
  "       insightdb datasets list [--config <path>]\n" ++
  "       insightdb datasets add [--config <path>] --id <id> --kind <kind> --file <path>\n" ++
  "       insightdb datasets remove [--config <path>] --id <id>\n"

/-- Prints an outcome; the result is the exit code. -/
def report : Outcome → IO UInt32
  | .response response => do
    IO.print response.line
    return 0
  | .version => do
    IO.println versionLine
    return 0
  | .help => do
    IO.print usageText
    return 0
  | .failure error => do
    IO.eprintln error.display
    return 1
  | .usage error => do
    IO.eprint ("error: " ++ error.message ++ "\n\n" ++ usageText)
    return 2

end CampusQuery

def main (arguments : List String) : IO UInt32 := do
  let input ← IO.getStdin
  CampusQuery.report (← CampusQuery.runArguments arguments (CampusQuery.readLine input .empty))
