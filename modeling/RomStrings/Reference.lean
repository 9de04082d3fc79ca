import RomStrings.Assembly.Definition
import RomStrings.Assembly.Line
import RomStrings.Note
import RomStrings.Resolution

/-!
References to resolved labels. A line that stores nothing but the address of such a label gets the
address itself, and keeps the label as an annotation.
-/

namespace RomStrings.Reference

/-- The line that stores an address, with the label it came from. -/
def resolvedLine (mark label : String) (address : Address) : String :=
  "\t.word\t" ++ Address.text address ++ "\t" ++ Assembly.annotated mark label

/-- The line in place of one that refers to a resolved label. -/
def resolve? (mark : String) (resolution : Resolution) (line : String) : Option String := do
  let label ← Assembly.wordReference? line
  let address ← resolution.find? label
  return resolvedLine mark label address

/-- The line with its reference resolved, if it is one to a resolved label. -/
def resolve (mark : String) (resolution : Resolution) (line : String) : String :=
  (resolve? mark resolution line).getD line

/-- Lines with their references resolved, and how many there were. -/
structure Resolved where
  lines : List String
  count : Nat
  deriving DecidableEq, Repr

def resolveAll (mark : String) (resolution : Resolution) (lines : List String) : Resolved :=
  { lines := lines.map (resolve mark resolution)
    count := lines.countP fun line => (resolve? mark resolution line).isSome }

/-- A running count of references after this pass. -/
def Resolved.countAfter (resolved : Resolved) (before : Int) : Int :=
  before + resolved.count

/-- What is said about the pass. Without resolved labels there is nothing to say. -/
def notes (resolution : Resolution) (resolved : Resolved) : List Note :=
  if resolution.isEmpty then []
  else
    [Note.debug ("Rewrote " ++ toString resolved.count ++ " .word references to "
      ++ toString resolution.length ++ " resolved labels")]

end RomStrings.Reference
