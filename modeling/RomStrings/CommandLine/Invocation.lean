import RomStrings.CommandLine.Arguments
import RomStrings.FileJob

/-!
What a command line asks for. Values are checked in a fixed order, and the first that is refused is
reported: options as they were given, then the base, the image, the assembly file, and what is left
over.
-/

namespace RomStrings.CommandLine

/-- The values that are checked. -/
inductive Parameter where
  | output
  | comment
  | base
  | image
  | assembly
  deriving DecidableEq, Repr

def Parameter.name : Parameter → String
  | .output => "'-o' / '--output'"
  | .comment => "'-c' / '--comment-char'"
  | .base => "'ROM_BASE'"
  | .image => "'ROM_IMAGE'"
  | .assembly => "'ASSEMBLY'"

/-- Why a value is refused. -/
inductive BadValue where
  | notAddress (given : String)
  | absent (given : String)
  | folder (given : String)
  | notAssembly (path : Path)
  | comment (mark : String)
  deriving DecidableEq, Repr

def BadValue.message : BadValue → String
  | .notAddress given => Text.quoted given ++ " is not a valid address"
  | .absent given => "File " ++ Text.quoted given ++ " does not exist."
  | .folder given => "File " ++ Text.quoted given ++ " is a directory."
  | .notAssembly path =>
      "'" ++ path.text ++ "' is not an assembly file (expected "
        ++ ", ".intercalate Path.assemblySuffixes ++ ")"
  | .comment mark => "invalid comment prefix " ++ Text.quoted mark

/-- Why a command line asks for nothing that can be done. -/
inductive UsageError where
  | arguments (error : ArgumentError)
  | badValue (parameter : Parameter) (reason : BadValue)
  | missing (parameter : Parameter)
  | extra (arguments : List String)
  deriving DecidableEq, Repr

def UsageError.message : UsageError → String
  | .arguments error => error.message
  | .badValue parameter reason => "Invalid value for " ++ parameter.name ++ ": " ++ reason.message
  | .missing parameter => "Missing argument " ++ parameter.name ++ "."
  | .extra [one] => "Got unexpected extra argument (" ++ one ++ ")"
  | .extra several => "Got unexpected extra arguments (" ++ " ".intercalate several ++ ")"

/-- A base address as it is given: a number already, or a text to be read. -/
inductive GivenAddress where
  | number (n : Int)
  | text (given : String)
  deriving DecidableEq, Repr

def GivenAddress.read : GivenAddress → Except BadValue Int
  | .number n => .ok n
  | .text given =>
      match Address.read given with
      | .ok n => .ok n
      | .error _ => .error (.notAddress given)

/-- A file that has to be there. -/
def readExisting (store : FileStore) (given : String) : Except BadValue Path :=
  match store.find? given with
  | none => .error (.absent given)
  | some .folder => .error (.folder given)
  | some (.file _) => .ok (Path.ofString given)

/-- A file that may be there, or not yet. -/
def readOutput (store : FileStore) (given : String) : Except BadValue Path :=
  match store.find? given with
  | some .folder => .error (.folder given)
  | _ => .ok (Path.ofString given)

/-- An assembly file that has to be there. -/
def readAssembly (store : FileStore) (given : String) : Except BadValue Path :=
  match readExisting store given with
  | .error reason => .error reason
  | .ok path => if path.isAssembly then .ok path else .error (.notAssembly path)

def readComment (mark : String) : Except BadValue String :=
  if isCommentMark mark then .ok mark else .error (.comment mark)

/-- Name the value that is refused. -/
def forParameter (parameter : Parameter) (value : Except BadValue α) : Except UsageError α :=
  value.mapError (.badValue parameter)

/-- Read the first argument that is left. -/
def readArgument (parameter : Parameter) (read : String → Except BadValue α)
    : List String → Except UsageError (α × List String)
  | [] => .error (.missing parameter)
  | given :: rest => (forParameter parameter (read given)).map fun value => (value, rest)

/-- A job, and what is to be said about it. -/
structure Invocation where
  job : FileJob
  stats : Bool
  verbose : Bool
  deriving DecidableEq, Repr

/-- The options that have values, with their values. -/
structure OptionValues where
  output : Option Path := none
  comment : String := "@"
  deriving DecidableEq, Repr

/-- Check one option that was given. -/
def OptionValues.read (store : FileStore) (arguments : Arguments) (values : OptionValues)
    (switch : Switch)
    : Except UsageError OptionValues :=
  match switch, arguments.value? switch with
  | .output, some given =>
      (forParameter .output (readOutput store given)).map fun path =>
        { values with output := some path }
  | .comment, some mark =>
      (forParameter .comment (readComment mark)).map fun comment => { values with comment }
  | _, _ => .ok values

/-- The job that arguments ask for. -/
def Invocation.ofArguments (store : FileStore) (arguments : Arguments)
    : Except UsageError Invocation := do
  let values ← arguments.switches.foldlM (OptionValues.read store arguments) {}
  let (base, rest) ← readArgument .base (fun given => (GivenAddress.text given).read)
    arguments.others
  let (rom, rest) ← readArgument .image (readExisting store) rest
  let (assembly, rest) ← readArgument .assembly (readAssembly store) rest
  if rest.isEmpty then
    return {
      job := { base, rom, assembly, output := values.output, comment := values.comment }
      stats := arguments.has .stats
      verbose := arguments.has .verbose }
  else
    throw (.extra rest)

/-- What a command line asks for. -/
inductive Command where
  | help
  | version
  | run (invocation : Invocation)
  deriving DecidableEq, Repr

def Command.ofList (store : FileStore) (given : List String) : Except UsageError Command :=
  match Arguments.ofList given with
  | .error error => .error (.arguments error)
  | .ok arguments =>
      match arguments.switches.find? fun switch => switch = .help ∨ switch = .version with
      | some .help => .ok .help
      | some _ => .ok .version
      | none => (Invocation.ofArguments store arguments).map .run

end RomStrings.CommandLine
