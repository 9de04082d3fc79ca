import RomStrings.SystemError
import RomStrings.Text.ControlSequence

/-!
How trouble is reported: one message, and an exit code that says what kind of trouble it was. What
is written to a stream may quote names and lines that somebody else wrote; where it does not go to a
terminal, it is written without control sequences. Notes are a record of the run and are written as
they are.
-/

namespace RomStrings.CommandLine

/-- What an exit code stands for. -/
inductive ExitCode where
  | success
  | inputError
  | invalidArguments
  | internalError
  | fileError
  deriving DecidableEq, Repr

def ExitCode.number : ExitCode → Nat
  | .success => 0
  | .inputError => 1
  | .invalidArguments => 2
  | .internalError => 3
  | .fileError => 4

/-- What went wrong: the assembly input, with the whole report of it; something else that the tool
checks; an argument; the operating system; or the tool itself.
-/
inductive Trouble where
  | input (report : String)
  | tool (message : String)
  | argument (message : String)
  | system (error : SystemError)
  | internal (message : String)
  deriving DecidableEq, Repr

namespace Trouble

def exitCode : Trouble → ExitCode
  | .input _ => .inputError
  | .tool _ => .inputError
  | .argument _ => .invalidArguments
  | .system _ => .fileError
  | .internal _ => .internalError

/-- The message about trouble during the named activity, which may have no name. -/
def message (activity : String) : Trouble → String
  | .input report => report
  | .tool message => (if activity = "" then "Error: " else activity ++ " error: ") ++ message
  | .argument message => "Error: " ++ message
  | .system error =>
      let file :=
        match error.file? with
        | some file => " '" ++ file ++ "'"
        | none => ""
      "Error: cannot access" ++ file ++ ": " ++ error.cause
  | .internal message => "Internal error: " ++ message

end Trouble

-----------------------------------------------------------------------------------------
-- Streams
-----------------------------------------------------------------------------------------

/-- One thing that is written to a stream, ended by a line break. -/
inductive Line where
  | message (text : String)
  | note (text : String)
  deriving DecidableEq, Repr

/-- The text of a line on a stream, which may be a terminal. -/
def Line.text (terminal : Bool) : Line → String
  | .message text =>
      if terminal then text else String.ofList (Text.withoutControlSequences text.toList)
  | .note text => text

/-- The text of lines on a stream, which may be a terminal. -/
def streamText (terminal : Bool) (lines : List Line) : String :=
  String.join (lines.map fun line => line.text terminal ++ "\n")

end RomStrings.CommandLine
