import CampusQuery.Schema.Field

/-!
Command lines. An option is `--name value` or `--name=value` and may be given once; a value that
starts with a dash needs the second form.
-/

namespace CampusQuery

inductive Command where
  | query (config : String) (file : Option String)
  | listDatasets (config : String)
  | addDataset (config id : String) (kind : SchemaKind) (file : String)
  | removeDataset (config id : String)
  deriving DecidableEq

/-- The configuration file that the command names. -/
def Command.config : Command → String
  | .query config _ => config
  | .listDatasets config => config
  | .addDataset config _ _ _ => config
  | .removeDataset config _ => config

/-- What a command line asks for. -/
inductive Invocation where
  | run (command : Command)
  | version
  | help
  deriving DecidableEq

inductive UsageError where
  | noCommand
  | unknownCommand (name : String)
  | unexpected (argument : String)
  | valueMissing (option : String)
  | valueUnexpected (option : String)
  | valueInvalid (option value : String)
  | repeated (option : String)
  | required (option : String)
  deriving DecidableEq

def UsageError.message : UsageError → String
  | .noCommand => "a command is required"
  | .unknownCommand name => "unrecognized command '" ++ name ++ "'"
  | .unexpected argument => "unexpected argument '" ++ argument ++ "'"
  | .valueMissing option => "a value is required for '--" ++ option ++ "'"
  | .valueUnexpected option => "unexpected value for '--" ++ option ++ "'"
  | .valueInvalid option value => "invalid value '" ++ value ++ "' for '--" ++ option ++ "'"
  | .repeated option => "'--" ++ option ++ "' cannot be used more than once"
  | .required option => "'--" ++ option ++ "' is required"

/-- The file that is read if `--config` is not given. -/
def defaultConfig : String := "./insightdb.json"

/-- How an argument is read where options may stand. -/
inductive Argument where
  /-- An option: `--name` or `--name=value`. -/
  | long (name : String) (value : Option String)
  /-- A dash and letters. -/
  | short (letters : List Char)
  /-- The argument `--`. -/
  | endOfOptions
  | plain
  deriving DecidableEq

/-- The parts around the first equals sign. -/
def splitEquals : List Char → List Char × Option (List Char)
  | [] => ([], none)
  | c :: cs =>
    if c = '=' then ([], some cs)
    else
      let (name, value) := splitEquals cs
      (c :: name, value)

/-- A dash alone is plain. -/
def Argument.ofString (s : String) : Argument :=
  match s.toList with
  | ['-', '-'] => .endOfOptions
  | '-' :: '-' :: rest =>
    let (name, value) := splitEquals rest
    .long (String.ofList name) (value.map String.ofList)
  | '-' :: c :: rest => .short (c :: rest)
  | _ => .plain

/-- Values that an option takes. -/
def isOptionValue (option value : String) : Bool :=
  if option = "kind" then (SchemaKind.ofName? value).isSome
  else if option = "config" ∨ option = "file" then value ≠ ""
  else true

/-- Options given so far; none once help is asked for. -/
abbrev GivenOptions := Option (List (String × String))

/-- Notes an option and its value. -/
def giveOption (given : List (String × String)) (option value : String) :
    Except UsageError (List (String × String)) :=
  if (given.lookup option).isSome then .error (.repeated option)
  else if isOptionValue option value then .ok ((option, value) :: given)
  else .error (.valueInvalid option value)

/-- Reads the options of a command, of which `known` are the names. -/
def readOptions (known : List String) (given : List (String × String)) :
    List String → Except UsageError GivenOptions
  | [] => .ok (some given)
  | argument :: rest =>
    match Argument.ofString argument with
    | .plain => .error (.unexpected argument)
    | .endOfOptions =>
      match rest with
      | [] => .ok (some given)
      | extra :: _ => .error (.unexpected extra)
    | .short letters => if letters.head? = some 'h' then .ok none else .error (.unexpected argument)
    | .long "help" none => .ok none
    | .long "help" (some _) => .error (.valueUnexpected "help")
    | .long name value =>
      if name ∉ known then .error (.unexpected argument)
      else
        match value, rest with
        | some value, rest => do
          let given ← giveOption given name value
          readOptions known given rest
        | none, [] => .error (.valueMissing name)
        | none, value :: rest =>
          if Argument.ofString value = .plain then do
            let given ← giveOption given name value
            readOptions known given rest
          else .error (.valueMissing name)

def requireOption (given : List (String × String)) (name : String) : Except UsageError String :=
  match given.lookup name with
  | some value => .ok value
  | none => .error (.required name)

/-- Reads options and makes the command of them. -/
def commandOf (known arguments : List String)
    (make : List (String × String) → Except UsageError Command) : Except UsageError Invocation := do
  match ← readOptions known [] arguments with
  | none => return .help
  | some given => return .run (← make given)

def configOf (given : List (String × String)) : String :=
  (given.lookup "config").getD defaultConfig

def queryInvocation (arguments : List String) : Except UsageError Invocation :=
  commandOf ["config", "file"] arguments fun given =>
    return .query (configOf given) (given.lookup "file")

def listInvocation (arguments : List String) : Except UsageError Invocation :=
  commandOf ["config"] arguments fun given => return .listDatasets (configOf given)

def addInvocation (arguments : List String) : Except UsageError Invocation :=
  commandOf ["config", "id", "kind", "file"] arguments fun given => do
    let id ← requireOption given "id"
    let kindName ← requireOption given "kind"
    let file ← requireOption given "file"
    match SchemaKind.ofName? kindName with
    | some kind => return .addDataset (configOf given) id kind file
    | none => throw (.valueInvalid "kind" kindName)

def removeInvocation (arguments : List String) : Except UsageError Invocation :=
  commandOf ["config", "id"] arguments fun given => do
    let id ← requireOption given "id"
    return .removeDataset (configOf given) id

/-- Reads an argument where a command is expected. -/
def refuseCommand (argument : String) : Except UsageError Invocation :=
  match Argument.ofString argument with
  | .short ('h' :: _) => .ok .help
  | .long "help" none => .ok .help
  | .plain => .error (.unknownCommand argument)
  | _ => .error (.unexpected argument)

/-- The commands after `datasets`. -/
def actionNames : List String := ["list", "add", "remove", "help"]

/-- What help can be asked about: no command, or the words of one. -/
def helpTopics : List (List String) :=
  [] :: ["query"] :: ["help"] :: ["datasets"] :: actionNames.map fun name => ["datasets", name]

def helpInvocation (topic : List String) : Except UsageError Invocation :=
  if topic ∈ helpTopics then .ok .help
  else .error (.unknownCommand (String.intercalate " " topic))

def datasetsInvocation : List String → Except UsageError Invocation
  | [] => .error .noCommand
  | "list" :: rest => listInvocation rest
  | "add" :: rest => addInvocation rest
  | "remove" :: rest => removeInvocation rest
  | "help" :: topic => helpInvocation ("datasets" :: topic)
  | argument :: _ => refuseCommand argument

/-- Reads a command line without the program's name. -/
def Invocation.ofArguments : List String → Except UsageError Invocation
  | [] => .error .noCommand
  | "query" :: rest => queryInvocation rest
  | "datasets" :: rest => datasetsInvocation rest
  | "help" :: topic => helpInvocation topic
  | argument :: _ =>
    match Argument.ofString argument with
    | .short ('V' :: _) => .ok .version
    | .long "version" none => .ok .version
    | _ => refuseCommand argument

end CampusQuery
