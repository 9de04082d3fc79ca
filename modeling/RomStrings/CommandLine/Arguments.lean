import RomStrings.Text.Quoted
import RomStrings.Text.Similarity

/-!
Command line arguments: options in their long and short spellings, and the rest in order. Options
may stand anywhere before `--`; short ones may share a dash.
-/

namespace RomStrings.CommandLine

/-- The options there are. -/
inductive Switch where
  | output
  | comment
  | stats
  | verbose
  | version
  | help
  deriving DecidableEq, Repr

namespace Switch

def all : List Switch := [.output, .comment, .stats, .verbose, .version, .help]

def long : Switch → String
  | .output => "--output"
  | .comment => "--comment-char"
  | .stats => "--stats"
  | .verbose => "--verbose"
  | .version => "--version"
  | .help => "--help"

/-- The letter of an option's short spelling. -/
def letter? : Switch → Option Char
  | .output => some 'o'
  | .comment => some 'c'
  | .verbose => some 'v'
  | _ => none

def takesValue : Switch → Bool
  | .output => true
  | .comment => true
  | _ => false

def ofLong? (name : String) : Option Switch :=
  all.find? fun switch => switch.long = name

def ofLetter? (letter : Char) : Option Switch :=
  all.find? fun switch => switch.letter? = some letter

end Switch

/-- An option as it was given. The value of one that takes none is empty. -/
structure Setting where
  switch : Switch
  value : String
  deriving DecidableEq, Repr

/-- Why arguments cannot be told apart. -/
inductive ArgumentError where
  | unknown (name : String) (close : List String)
  | valueMissing (name : String)
  | valueUnexpected (name : String)
  deriving DecidableEq, Repr

def ArgumentError.message : ArgumentError → String
  | .unknown name [] => "No such option: " ++ name
  | .unknown name [one] => "No such option: " ++ name ++ " Did you mean " ++ one ++ "?"
  | .unknown name several =>
      "No such option: " ++ name ++ " (Possible options: " ++ ", ".intercalate several ++ ")"
  | .valueMissing name => "Option " ++ Text.quoted name ++ " requires an argument."
  | .valueUnexpected name => "Option " ++ Text.quoted name ++ " does not take a value."

/-- Arguments told apart so far: options in the order given, other arguments, the option that waits
for its value and how it was spelled, and whether options have ended.
-/
structure Arguments where
  settings : List Setting := []
  others : List String := []
  waiting : Option (Switch × String) := none
  ended : Bool := false
  deriving DecidableEq, Repr

namespace Arguments

def set (arguments : Arguments) (switch : Switch) (value : String) : Arguments :=
  { arguments with settings := arguments.settings ++ [{ switch, value }], waiting := none }

/-- An option in its long spelling, with the value behind the equals sign if there is one. -/
def readLong (arguments : Arguments) (switch : Switch) (name : String) (value? : Option String)
    : Except ArgumentError Arguments :=
  match switch.takesValue, value? with
  | true, some value => .ok (arguments.set switch value)
  | true, none => .ok { arguments with waiting := some (switch, name) }
  | false, some _ => .error (.valueUnexpected name)
  | false, none => .ok (arguments.set switch "")

/-- Options in their short spellings behind one dash. One that takes a value takes all that
follows, or the next argument if nothing does.
-/
def readShort (arguments : Arguments) : List Char → Except ArgumentError Arguments
  | [] => .ok arguments
  | letter :: rest =>
      let name := "-" ++ letter.toString
      match Switch.ofLetter? letter with
      | none => .error (.unknown name [])
      | some switch =>
          if switch.takesValue then
            if rest.isEmpty then .ok { arguments with waiting := some (switch, name) }
            else .ok (arguments.set switch (String.ofList rest))
          else
            readShort (arguments.set switch "") rest

/-- The part of an argument before its first equals sign, and the part behind it. -/
def splitValue (argument : List Char) : String × Option String :=
  let name := String.ofList (argument.takeWhile (· ≠ '='))
  match argument.dropWhile (· ≠ '=') with
  | [] => (name, none)
  | _ :: value => (name, some (String.ofList value))

/-- An argument that starts with a dash and is more than that. -/
def readOption (arguments : Arguments) (argument : List Char) : Except ArgumentError Arguments :=
  let (name, value?) := splitValue argument
  match Switch.ofLong? name with
  | some switch => arguments.readLong switch name value?
  | none =>
      match argument with
      | '-' :: '-' :: _ =>
          .error (.unknown name (Text.closest name (Switch.all.map Switch.long)))
      | _ => arguments.readShort argument.tail

def read (arguments : Arguments) (argument : String) : Except ArgumentError Arguments :=
  match arguments.waiting with
  | some (switch, _) => .ok (arguments.set switch argument)
  | none =>
      if arguments.ended then .ok { arguments with others := arguments.others ++ [argument] }
      else
        match argument.toList with
        | ['-', '-'] => .ok { arguments with ended := true }
        | '-' :: _ :: _ => arguments.readOption argument.toList
        | _ => .ok { arguments with others := arguments.others ++ [argument] }

def ofList (given : List String) : Except ArgumentError Arguments :=
  match given.foldlM read {} with
  | .error e => .error e
  | .ok arguments =>
      match arguments.waiting with
      | some (_, name) => .error (.valueMissing name)
      | none => .ok arguments

/-- The options that were given, each where it was given first. -/
def switches (arguments : Arguments) : List Switch :=
  (arguments.settings.map Setting.switch).eraseDups

def has (arguments : Arguments) (switch : Switch) : Bool :=
  arguments.settings.any fun setting => setting.switch = switch

/-- The value that an option was given last. -/
def value? (arguments : Arguments) (switch : Switch) : Option String :=
  (arguments.settings.reverse.find? fun setting => setting.switch = switch).map Setting.value

end Arguments

end RomStrings.CommandLine
