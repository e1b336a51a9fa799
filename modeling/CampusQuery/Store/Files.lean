import CampusQuery.Text.Utf8

/-!
What a store needs of a file system. Every operation may fail, and a failure is a value. Paths and
names are bytes, which need not be a text.
-/

namespace CampusQuery

/-- A name in a directory. -/
abbrev FileName := List UInt8

abbrev FilePath := List UInt8

/-- What separates the names of a path. -/
def slash : UInt8 := 0x2f

def dot : UInt8 := 0x2e

inductive FileError where
  | notFound
  | notDirectory
  | isDirectory
  | alreadyExists
  | nameTooLong
  | invalidName
  | notText
  /-- A reason that comes from outside. -/
  | other (reason : String)
  deriving DecidableEq

def FileError.message : FileError → String
  | .notFound => "no such file or directory"
  | .notDirectory => "not a directory"
  | .isDirectory => "is a directory"
  | .alreadyExists => "file exists"
  | .nameTooLong => "file name too long"
  | .invalidName => "file name contains an unexpected NUL byte"
  | .notText => "stream did not contain valid UTF-8"
  | .other reason => reason

/-- Operations on files and directories in the context `m`. -/
class Files (m : Type → Type) where
  readFile : FilePath → m (Except FileError ByteArray)
  /-- Puts the content in place of an earlier one. -/
  writeFile : FilePath → ByteArray → m (Except FileError Unit)
  removeFile : FilePath → m (Except FileError Unit)
  pathExists : FilePath → m Bool
  /-- Makes a directory and those around it, as far as they are missing. -/
  createDirs : FilePath → m (Except FileError Unit)
  /-- The names in a directory, in any order. -/
  listDir : FilePath → m (Except FileError (List FileName))

/-- Reads a file as text. -/
def readText [Monad m] [Files m] (path : FilePath) : m (Except FileError String) := do
  match ← Files.readFile path with
  | .error e => return .error e
  | .ok bytes =>
    match String.fromUTF8? bytes with
    | some text => return .ok text
    | none => return .error .notText

/-- The path starts at the root. -/
def isAbsolute (path : FilePath) : Bool :=
  path.head? = some slash

/-- The path of a name in a directory; an absolute name stands for itself. -/
def joinPath (dir : FilePath) (name : FileName) : FilePath :=
  if isAbsolute name || dir = [] then name
  else if dir.getLast? = some slash then dir ++ name
  else dir ++ slash :: name

end CampusQuery
