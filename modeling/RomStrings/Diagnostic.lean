/-!
Places in an assembly file, and what is shown when something there is wrong: the place and the
fault, the line with a caret under the column, and a hint.
-/

namespace RomStrings

/-- A place in a file. Lines and columns count from one; column zero means the whole line. -/
structure Location where
  file : String
  line : Int
  column : Int := 0
  deriving DecidableEq, Repr

namespace Location

def text (place : Location) : String :=
  place.file ++ ":" ++ toString place.line ++ ":" ++ toString place.column

def atColumn (place : Location) (column : Int) : Location :=
  { place with column }

end Location

/-- A fault in assembly input, with what is known about where it is and what to do. -/
structure Diagnostic where
  message : String
  location : Option Location := none
  hint : Option String := none
  sourceLine : Option String := none
  deriving DecidableEq, Repr

namespace Diagnostic

/-- A tab is shown as one space, so that a caret stands under its character. -/
def showTab (c : Char) : Char :=
  if c = '\t' then ' ' else c

/-- The line that says what is wrong. -/
def headline (d : Diagnostic) : String :=
  match d.location with
  | some place => place.text ++ ": error: " ++ d.message
  | none => "error: " ++ d.message

/-- The line at fault, moved in by four, and the caret under its column if that is known. -/
def excerpt (place : Location) (line : String) : List String :=
  let shown := "    " ++ String.ofList (line.toList.map showTab)
  if place.column > 0 then
    [shown, String.ofList (List.replicate (4 + place.column - 1).toNat ' ' ++ ['^'])]
  else
    [shown]

/-- The lines shown for a fault. -/
def shownLines (d : Diagnostic) : List String :=
  let context :=
    match d.location, d.sourceLine with
    | some place, some line => excerpt place line
    | _, _ => []
  let hint :=
    match d.hint with
    | some hint => if hint = "" then [] else ["hint: " ++ hint]
    | none => []
  d.headline :: context ++ hint

def text (d : Diagnostic) : String :=
  "\n".intercalate d.shownLines

/-- The report of input that ends while a block is open. -/
def truncated (block : String) (location : Option Location) (sourceLine : Option String)
    : Diagnostic :=
  { message := "unexpected end of input inside block '" ++ block ++ "'"
    location
    hint := some "the file looks truncated; regenerate it from the compiler"
    sourceLine }

end Diagnostic

end RomStrings
