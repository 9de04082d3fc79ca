import RomStrings.Assembly.Symbol

/-!
Directives of assembly: a dot and a name, perhaps behind blanks, and operands behind more blanks.
-/

namespace RomStrings.Assembly

open Text

/-- A directive's name, and all that follows the name on its line. -/
structure Directive where
  name : List Char
  rest : List Char
  deriving DecidableEq, Repr

/-- The directive on a line. The name is the whole run of word characters behind the dot. -/
def directive? (line : List Char) : Option Directive :=
  match skipBlanks line with
  | '.' :: text => some { name := text.takeWhile isWord, rest := text.dropWhile isWord }
  | _ => none

/-- The line holds a directive with one of the names. -/
def isDirective (names : List String) (line : List Char) : Bool :=
  match directive? line with
  | some d => names.any fun name => name.toList = d.name
  | none => false

/-- The text from the first operand on, where a blank parts it from the name. -/
def Directive.operands? (d : Directive) : Option (List Char) :=
  if d.rest.head?.any isBlank then some (skipBlanks d.rest) else none

/-- The operands of the directive with the given name. -/
def operandsOf? (name : String) (line : List Char) : Option (List Char) := do
  let d ← directive? line
  if d.name = name.toList then d.operands? else none

/-- The text behind a comma and the blanks on both sides of it. -/
def afterComma? (text : List Char) : Option (List Char) :=
  match skipBlanks text with
  | ',' :: rest => some (skipBlanks rest)
  | _ => none

/-- A directive's first operand is a symbol and a second one follows: the symbol, and the text from
the second operand on.
-/
def symbolThen? (name : String) (line : List Char) : Option (String × List Char) := do
  let operands ← operandsOf? name line
  let (symbol, rest) ← symbol? operands
  let second ← afterComma? rest
  return (symbol, second)

end RomStrings.Assembly
