import CampusQuery.Store.Files

/-!
A file system as a value: directories and files by their place in the tree. Programs that use
`Files` can be run on it.
-/

namespace CampusQuery

-- Contents are compared by the instance of the core library.
attribute [local instance (high)] ByteArray.instDecidableEq

/-- The names from a place up to the root, the innermost first. -/
abbrev Location := List FileName

inductive FileNode where
  | file (content : ByteArray)
  | directory
  deriving DecidableEq

/-- The first entry of a location counts. The root is always a directory. -/
structure FileTree where
  nodes : List (Location × FileNode)
  /-- Where relative paths start. -/
  workingDir : Location

namespace FileTree

/-- A location and those around it, without the root. -/
def outward : Location → List Location
  | [] => []
  | name :: parent => (name :: parent) :: outward parent

/-- A tree of nothing but the working directory. -/
def ofWorkingDir (workingDir : Location) : FileTree :=
  ⟨(outward workingDir).map (·, .directory), workingDir⟩

def node? (tree : FileTree) (location : Location) : Option FileNode :=
  if location = [] then some .directory else tree.nodes.lookup location

def setNode (location : Location) (node : FileNode) (tree : FileTree) : FileTree :=
  { tree with nodes := (location, node) :: tree.nodes.filter (·.1 ≠ location) }

def dropNode (location : Location) (tree : FileTree) : FileTree :=
  { tree with nodes := tree.nodes.filter (·.1 ≠ location) }

/-- The longest name and the longest path. -/
def maxNameSize : Nat := 255

def maxPathSize : Nat := 4095

def checkPath (path : FilePath) : Except FileError Unit :=
  if path = [] then .error .notFound
  else if 0 ∈ path then .error .invalidName
  else if maxPathSize < path.length then .error .nameTooLong
  else .ok ()

/-- The parts between slashes. -/
def splitSlashes : FilePath → List FileName
  | [] => [[]]
  | byte :: rest =>
    if byte = slash then [] :: splitSlashes rest
    else match splitSlashes rest with
      | [] => [[byte]]
      | step :: steps => (byte :: step) :: steps

/-- Where a path starts, and its steps. -/
def steps (tree : FileTree) (path : FilePath) : Location × List FileName :=
  (if isAbsolute path then [] else tree.workingDir, splitSlashes path)

/-- Takes the steps from a location; each leaves from a directory. -/
def walk (tree : FileTree) (location : Location) : List FileName → Except FileError Location
  | [] => .ok location
  | step :: rest =>
    match tree.node? location with
    | none => .error .notFound
    | some (.file _) => .error .notDirectory
    | some .directory =>
      if step = [] ∨ step = [dot] then tree.walk location rest
      else if step = [dot, dot] then tree.walk location.tail rest
      else if maxNameSize < step.length then .error .nameTooLong
      else tree.walk (step :: location) rest

/-- The location of a path; its last name need not exist. -/
def locate (tree : FileTree) (path : FilePath) : Except FileError Location := do
  checkPath path
  let (start, steps) := tree.steps path
  tree.walk start steps

/-- Makes the directories on the way; those made before a failure stay. -/
def createAlong (tree : FileTree) (location : Location) :
    List FileName → Except FileError Unit × FileTree
  | [] => (.ok (), tree)
  | step :: rest =>
    if step = [dot, dot] then tree.createAlong location.tail rest
    else if maxNameSize < step.length then (.error .nameTooLong, tree)
    else
      match tree.node? (step :: location) with
      | some .directory => tree.createAlong (step :: location) rest
      | some (.file _) => (.error (if rest = [] then .alreadyExists else .notDirectory), tree)
      | none => (tree.setNode (step :: location) .directory).createAlong (step :: location) rest

def readFile (tree : FileTree) (path : FilePath) : Except FileError ByteArray := do
  match tree.node? (← tree.locate path) with
  | some (.file content) => return content
  | some .directory => throw .isDirectory
  | none => throw .notFound

def writeFile (tree : FileTree) (path : FilePath) (content : ByteArray) :
    Except FileError Unit × FileTree :=
  match tree.locate path with
  | .error e => (.error e, tree)
  | .ok location =>
    if tree.node? location = some .directory then (.error .isDirectory, tree)
    else (.ok (), tree.setNode location (.file content))

def removeFile (tree : FileTree) (path : FilePath) : Except FileError Unit × FileTree :=
  match tree.locate path with
  | .error e => (.error e, tree)
  | .ok location =>
    match tree.node? location with
    | some (.file _) => (.ok (), tree.dropNode location)
    | some .directory => (.error .isDirectory, tree)
    | none => (.error .notFound, tree)

def pathExists (tree : FileTree) (path : FilePath) : Bool :=
  match tree.locate path with
  | .error _ => false
  | .ok location => (tree.node? location).isSome

def isDir (tree : FileTree) (path : FilePath) : Bool :=
  match tree.locate path with
  | .error _ => false
  | .ok location => tree.node? location = some .directory

/-- The steps that name something, and whether a dot follows the last of them. -/
def nameSteps (steps : List FileName) : List FileName × Bool :=
  let steps := steps.filter (· ≠ [])
  (steps.filter (· ≠ [dot]), steps.getLast? = some [dot])

/-- Nothing is made for an empty path. A dot at the end asks for a directory that is there once
those around it are made. -/
def createDirs (tree : FileTree) (path : FilePath) : Except FileError Unit × FileTree :=
  if path = [] then (.ok (), tree)
  else
    match checkPath path with
    | .error e => (.error e, tree)
    | .ok () =>
      let (start, steps) := tree.steps path
      let (names, dotted) := nameSteps steps
      if dotted then
        match tree.createAlong start names.dropLast with
        | (.error e, after) => (.error e, after)
        | (.ok (), after) => (if after.isDir path then .ok () else .error .notFound, after)
      else tree.createAlong start names

/-- The name of a location that lies directly in `dir`. -/
def nameIn? (dir : Location) : Location → Option FileName
  | [] => none
  | name :: parent => if parent = dir then some name else none

def listDir (tree : FileTree) (path : FilePath) : Except FileError (List FileName) := do
  let location ← tree.locate path
  match tree.node? location with
  | some .directory => return tree.nodes.filterMap fun entry => nameIn? location entry.1
  | some (.file _) => throw .notDirectory
  | none => throw .notFound

end FileTree

instance : Files (StateM FileTree) where
  readFile path := fun tree => (tree.readFile path, tree)
  writeFile path content := fun tree => tree.writeFile path content
  removeFile path := fun tree => tree.removeFile path
  pathExists path := fun tree => (tree.pathExists path, tree)
  createDirs path := fun tree => tree.createDirs path
  listDir path := fun tree => (tree.listDir path, tree)

end CampusQuery
