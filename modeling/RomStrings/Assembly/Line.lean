import RomStrings.Assembly.Directive
import RomStrings.Escape

/-!
The forms of assembly lines that matter to string storage. A line may have several forms at once;
each test reads the line from its start and takes the longest symbol, name or run of blanks.
-/

namespace RomStrings.Assembly

open Text

/-- A line that defines a label and nothing else. -/
def label? (line : String) : Option String := do
  let (symbol, rest) ← symbol? (skipBlanks line.toList)
  match rest with
  | ':' :: tail => if isRestBlank tail then some symbol else none
  | _ => none

/-- String data on a line: the directive, the text between the quotes as it is written, and the
column at which that text starts, counted from one.
-/
structure Payload where
  directive : String
  escaped : List Char
  column : Nat
  deriving DecidableEq, Repr

/-- The text up to the quote that closes it, and what follows that quote. A backslash takes the
next character with it, which may be a quote but not a line feed.
-/
def quotedBody? : List Char → Option (List Char × List Char)
  | [] => none
  | '"' :: rest => some ([], rest)
  | '\\' :: c :: rest =>
      if c = '\n' then none
      else (quotedBody? rest).map fun (body, tail) => ('\\' :: c :: body, tail)
  | ['\\'] => none
  | c :: rest => (quotedBody? rest).map fun (body, tail) => (c :: body, tail)

/-- The directives that hold string data. -/
def payloadDirectives : List String := ["ascii", "asciz", "string"]

/-- The directives that end their data with a zero byte of their own. -/
def terminatedDirectives : List String := ["asciz", "string"]

/-- A line of string data. -/
def payload? (line : String) : Option Payload := do
  let d ← directive? line.toList
  let name := String.ofList d.name
  if payloadDirectives.contains name then
    match ← d.operands? with
    | '"' :: text =>
        let (escaped, tail) ← quotedBody? text
        if isRestBlank tail then
          some { directive := name, escaped, column := line.toList.length - text.length + 1 }
        else
          none
    | _ => none
  else
    none

def Payload.bytes (p : Payload) : Except Escape.Error Bytes :=
  (Escape.decode p.escaped).map fun data =>
    if terminatedDirectives.contains p.directive then data ++ [0] else data

/-- A text starts with one or more decimal digits, then a comma, with blanks allowed before it. -/
def isNumberThenComma (text : List Char) : Bool :=
  text.head?.any isDecimalDigit && (afterComma? (text.dropWhile isDecimalDigit)).isSome

/-- The names that a compiler gives to the objects that hold a function's name. -/
def functionNames : List String := ["__FUNCTION__", "__func__", "__PRETTY_FUNCTION__"]

/-- A line that opens the section of one function-name object. -/
def isFunctionSection (line : String) : Bool :=
  match operandsOf? "section" line.toList >>= after? ".rodata.".toList with
  | some text =>
      functionNames.any fun name =>
        match after? (name.toList ++ ['.']) text with
        | some number => isNumberThenComma number
        | none => false
  | none => false

/-- A line that opens a section of read-only data. -/
def isRodataSection (line : String) : Bool :=
  match operandsOf? "section" line.toList >>= after? ".rodata".toList with
  | some text => !text.head?.any isWord
  | none => false

/-- The directives that may change the section. -/
def sectionDirectives : List String :=
  ["section", "pushsection", "popsection", "previous", "text", "data", "bss"]

/-- A line that may change the section. -/
def isSectionSwitch (line : String) : Bool :=
  isDirective sectionDirectives line.toList

/-- A line that sets a section anchor. -/
def isAnchor (line : String) : Bool :=
  match operandsOf? "set" line.toList >>= after? ".LANCHOR".toList with
  | some text => isNumberThenComma text
  | none => false

/-- The text is the current place plus nothing, blanks apart. -/
def isHere (text : List Char) : Bool :=
  match text with
  | '.' :: plus =>
      match skipBlanks plus with
      | '+' :: zero =>
          match skipBlanks zero with
          | '0' :: tail => isRestBlank tail
          | _ => false
      | _ => false
  | _ => false

/-- A line that sets a symbol to the current place. -/
def anchorDefinition? (line : String) : Option String := do
  let (symbol, value) ← symbolThen? "set" line.toList
  if isHere value then some symbol else none

def dropTypeMark : List Char → List Char
  | '%' :: rest => rest
  | '@' :: rest => rest
  | '#' :: rest => rest
  | text => text

/-- A line that gives a symbol's type: the symbol and the type. -/
def typeOf? (line : String) : Option (String × String) := do
  let (symbol, type) ← symbolThen? "type" line.toList
  let text := dropTypeMark type
  if !(text.takeWhile isWord).isEmpty && isRestBlank (text.dropWhile isWord) then
    some (symbol, String.ofList (text.takeWhile isWord))
  else
    none

/-- A line that gives a symbol's size: the symbol and the size. -/
def sizeOf? (line : String) : Option (String × String) := do
  let (symbol, size) ← symbolThen? "size" line.toList
  let text := size.takeWhile (!isBlank ·)
  if !text.isEmpty && isRestBlank (size.dropWhile (!isBlank ·)) then
    some (symbol, String.ofList text)
  else
    none

def alignDirectives : List String := ["align", "p2align", "balign"]

def isAlign (line : String) : Bool :=
  isDirective alignDirectives line.toList

/-- A line that stores one symbol's address, in the exact form that compilers write. One line feed
may end it.
-/
def wordReference? (line : String) : Option String := do
  let text ← after? "\t.word\t".toList line.toList
  let (symbol, rest) ← symbol? text
  if rest = [] ∨ rest = ['\n'] then some symbol else none

end RomStrings.Assembly
