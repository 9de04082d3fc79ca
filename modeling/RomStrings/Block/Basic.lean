import RomStrings.Assembly.Line
import RomStrings.Diagnostic
import RomStrings.Rom.Match

/-!
String blocks: the lines that define one string object, the symbol they define, and the bytes they
store. A block can be at fault in two ways: a payload of it does not read, or the input ends inside
it. Either way nothing is written.
-/

namespace RomStrings

/-- What a string object is: an anonymous literal, or a function's name, which may carry a section
anchor that moves with it.
-/
inductive BlockKind where
  | literal
  | function (anchor : Option String)
  deriving DecidableEq, Repr

/-- A complete string block, with the number of its first line. -/
structure Block where
  kind : BlockKind
  number : Nat
  lines : List String
  label : String
  bytes : Bytes
  deriving DecidableEq, Repr

namespace Block

/-- The section anchor that the block defines. -/
def anchor (block : Block) : Option String :=
  match block.kind with
  | .literal => none
  | .function anchor => anchor

/-- Where ROM holds the block's bytes, by the rule for its kind. -/
def find (block : Block) (table : Rom.Table) : Option Rom.Match :=
  match block.kind with
  | .literal => table.matchLiteral block.bytes
  | .function _ => table.matchFunction block.bytes

end Block

-----------------------------------------------------------------------------------------
-- Literals
-----------------------------------------------------------------------------------------

/-- A label line, its number, and the payload lines so far with the bytes each stores. -/
structure Literal where
  label : String
  number : Nat
  labelLine : String
  payloads : List (String × Bytes) := []
  deriving DecidableEq, Repr

namespace Literal

def add (literal : Literal) (line : String) (bytes : Bytes) : Literal :=
  { literal with payloads := literal.payloads ++ [(line, bytes)] }

/-- All lines, label line first. -/
def lines (literal : Literal) : List String :=
  literal.labelLine :: literal.payloads.map Prod.fst

def bytes (literal : Literal) : Bytes :=
  literal.payloads.flatMap Prod.snd

def block (literal : Literal) : Block :=
  { kind := .literal
    number := literal.number
    lines := literal.lines
    label := literal.label
    bytes := literal.bytes }

end Literal

-----------------------------------------------------------------------------------------
-- Faults
-----------------------------------------------------------------------------------------

namespace Scan

/-- A fault of the input, on the line with the given number and text. -/
inductive Error where
  | escape (number : Nat) (line : String) (column : Nat) (error : Escape.Error)
  | truncated (number : Nat) (line : String) (block : String)
  deriving DecidableEq, Repr

/-- The report of a fault in the named file. -/
def Error.diagnostic (file : String) : Error → Diagnostic
  | .escape number line column error =>
      error.diagnostic (some { file, line := number, column }) (some line)
  | .truncated number line block =>
      Diagnostic.truncated block (some { file, line := number }) (some line)

/-- The bytes of a payload line, or the fault in it. -/
def payloadBytes (number : Nat) (line : String) (payload : Assembly.Payload)
    : Except Error Bytes :=
  match payload.bytes with
  | .ok bytes => .ok bytes
  | .error error => .error (.escape number line payload.column error)

end Scan

end RomStrings
