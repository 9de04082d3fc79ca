import RomStrings.Text.Split

/-!
File paths, as a person writes them. Empty and `.` components say nothing and are dropped; `..` is
kept, since what it names depends on the folders.
-/

namespace RomStrings

open Text

/-- A path: the slashes that start it, and its components. -/
structure Path where
  root : String
  parts : List String
  deriving DecidableEq, Repr

namespace Path

/-- The slashes that anchor a path. Two are kept as they are, any other number counts as one. -/
def rootOf : List Char → String
  | '/' :: '/' :: '/' :: _ => "/"
  | '/' :: '/' :: _ => "//"
  | '/' :: _ => "/"
  | _ => ""

/-- The component says where to go next. -/
def isStep (part : String) : Bool :=
  part ≠ "" && part ≠ "."

def ofString (given : String) : Path :=
  { root := rootOf given.toList
    parts := ((split '/' given.toList).map String.ofList).filter isStep }

/-- The text of a path. The path with neither root nor components is the current folder. -/
def text (path : Path) : String :=
  if path.root = "" ∧ path.parts = [] then "."
  else path.root ++ String.ofList (join '/' (path.parts.map String.toList))

/-- The last component, empty if there is none. -/
def name (path : Path) : String :=
  path.parts.getLastD ""

/-- The part of a name from its last dot, empty when that dot is its first or last character. -/
def suffixOf (name : List Char) : List Char :=
  let reversed := name.reverse
  match reversed.takeWhile (· ≠ '.'), reversed.dropWhile (· ≠ '.') with
  | c :: tail, '.' :: _ :: _ => '.' :: (c :: tail).reverse
  | _, _ => []

/-- The endings of assembly files. -/
def assemblySuffixes : List String := [".s", ".S", ".asm"]

def isAssembly (path : Path) : Bool :=
  assemblySuffixes.contains (String.ofList (suffixOf path.name.toList))

end Path

end RomStrings
