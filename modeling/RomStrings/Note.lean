/-!
Notes: what a run says about its decisions, beside its output. Which of them are shown, and how, is
up to the command line.
-/

namespace RomStrings

/-- How much a note matters. -/
inductive Level where
  | debug
  | info
  deriving DecidableEq, Repr

/-- One thing that a run says. -/
structure Note where
  level : Level
  text : String
  deriving DecidableEq, Repr

/-- A note for a reader who follows each decision. -/
def Note.debug (text : String) : Note :=
  { level := .debug, text }

/-- A note for every reader. -/
def Note.info (text : String) : Note :=
  { level := .info, text }

/-- A value, and what was said on the way to it. -/
structure Noted (α : Type) where
  notes : List Note
  value : α

end RomStrings
