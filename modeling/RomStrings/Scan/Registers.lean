import RomStrings.Options
import RomStrings.Segment

/-!
A scan with all that it knows in registers of their own: the part of the input, whether an anchor
keeps the section as it is, the literal and the object that are open, field by field, and what is
gathered so far. Each part has a handler, which changes some registers and says whether the line is
to be read again. Nothing but the order of the changes keeps the registers in step.
-/

namespace RomStrings.Scan

open Assembly

-----------------------------------------------------------------------------------------
-- Registers
-----------------------------------------------------------------------------------------

/-- The parts of an input that are read in ways of their own. -/
inductive Part where
  | outside
  | rodata
  | object
  deriving DecidableEq, Repr

/-- The elements of an object's grammar. -/
inductive Element where
  | opening
  | anchor
  | type
  | size
  | label
  | payload
  deriving DecidableEq, Repr

/-- A literal that is open: the number of its label line, its lines, and what was read from them. -/
structure OpenLiteral where
  label : String
  number : Nat
  lines : List String
  bytes : Bytes := []
  payloadCount : Nat := 0
  deriving DecidableEq, Repr

def OpenLiteral.add (literal : OpenLiteral) (line : String) (bytes : Bytes) : OpenLiteral :=
  { literal with
    lines := literal.lines ++ [line]
    bytes := literal.bytes ++ bytes
    payloadCount := literal.payloadCount + 1 }

/-- An object that is open: the number of its section line, its lines, the latest element of the
grammar among them, and what was read from them.
-/
structure OpenObject where
  number : Nat
  lines : List String
  stage : Element := .opening
  symbol : Option String := none
  anchor : Option String := none
  bytes : Bytes := []
  deriving DecidableEq, Repr

def OpenObject.add (object : OpenObject) (line : String) (stage : Element) : OpenObject :=
  { object with lines := object.lines ++ [line], stage }

/-- A name that counts as given: an empty one does not. -/
def given (name : Option String) : Option String :=
  name.filter (· ≠ "")

def OpenObject.name (object : OpenObject) : String :=
  (given object.symbol).getD "<function section>"

/-- All that a scan knows, with the latest line and its number. -/
structure Registers where
  part : Part := .outside
  leftAlone : Bool := false
  literal : Option OpenLiteral := none
  object : Option OpenObject := none
  number : Nat := 0
  line : String := ""
  output : List String := []
  resolution : Resolution := []
  stats : Stats := {}
  notes : List Note := []
  deriving DecidableEq, Repr

/-- Why a scan breaks off: a fault of the input, or a complete object that has no symbol to be
written under.
-/
inductive Halt where
  | fault (error : Error)
  | nameless
  deriving DecidableEq, Repr

/-- What a handler leaves behind, and whether the line is to be read again. -/
structure Handled where
  registers : Registers
  again : Bool
  deriving DecidableEq, Repr

namespace Registers

-----------------------------------------------------------------------------------------
-- What is written
-----------------------------------------------------------------------------------------

def write (registers : Registers) (lines : List String) : Registers :=
  { registers with output := registers.output ++ lines }

def count (registers : Registers) (more : Stats) : Registers :=
  { registers with stats := registers.stats + more }

/-- Note something about the line with the given number. -/
def note (options : Options) (registers : Registers) (number : Nat) (text : String)
    : Registers :=
  { registers with notes := registers.notes ++ [Segment.noteAt options.file number text] }

/-- Write a complete block: as it is where ROM does not hold it, else as definitions of its symbols.
-/
def emit (options : Options) (registers : Registers) (block : Block)
    : Option Rom.Match → Registers
  | none =>
      ((registers.note options block.number ("'" ++ block.label ++ "' not found in ROM")).count
        { unmatched := 1 }).write block.lines
  | some found =>
      let defined :=
        registers.write
          (replacement options.comment block.lines block.label block.anchor found.address)
      let resolved :=
        { defined with resolution := defined.resolution.insert block.label found.address }
      let counted :=
        { resolved with
          stats :=
            resolved.stats.record found.kind (block.kind ≠ BlockKind.literal) block.bytes.length }
      counted.note options block.number
        ("'" ++ block.label ++ "' -> " ++ Address.text found.address ++ " (" ++ found.kind.text
          ++ ")")

/-- The literal ends. A label without payload is none. -/
def finishLiteral (table : Rom.Table) (options : Options) (registers : Registers)
    (literal : OpenLiteral)
    : Registers :=
  let closed := { registers with literal := none }
  if literal.payloadCount = 0 then closed.write literal.lines
  else
    closed.emit options
      { kind := .literal
        number := literal.number
        lines := literal.lines
        label := literal.label
        bytes := literal.bytes }
      (table.matchLiteral literal.bytes)

/-- The object is complete, and written under its symbol. -/
def finishObject (table : Rom.Table) (options : Options) (registers : Registers)
    (object : OpenObject)
    : Except Halt Registers :=
  let closed := { registers with object := none }
  match object.symbol with
  | none => .error .nameless
  | some symbol =>
      .ok
        (closed.emit options
          { kind := .function (given object.anchor)
            number := object.number
            lines := object.lines
            label := symbol
            bytes := object.bytes }
          (table.matchFunction object.bytes))

/-- The object does not fit the grammar, and is written as it is. -/
def abort (options : Options) (registers : Registers) (object : OpenObject) (reason : Misfit)
    : Handled :=
  let closed := { registers with part := .outside, object := none }
  let noted :=
    closed.note options object.number ("not a function name block (" ++ reason.text ++ ")")
  { registers := (noted.count { abortedFunctions := 1 }).write object.lines, again := true }

-----------------------------------------------------------------------------------------
-- Handlers
-----------------------------------------------------------------------------------------

/-- The bytes of the payload on the latest line. -/
def decode (registers : Registers) (line : String) (payload : Payload) : Except Halt Bytes :=
  (payloadBytes registers.number line payload).mapError .fault

/-- Outside read-only data, only a section line matters. -/
def handleOutside (line : String) (registers : Registers) : Handled :=
  if isFunctionSection line then
    { registers := { registers with part := .object }, again := true }
  else if isRodataSection line then
    { registers := { registers.write [line] with part := .rodata, leftAlone := false }
      again := false }
  else
    { registers := { registers.write [line] with part := .outside }, again := false }

/-- From its anchor on, a section is kept as it is. -/
def keepSection (options : Options) (registers : Registers) : Registers :=
  let noted :=
    registers.note options registers.number "section anchor, leaving rest of section unchanged"
  { noted with leftAlone := true }.count { anchoredSections := 1 }

/-- In read-only data, a literal that is open goes on with payload; behind it, a label opens the
next one, unless an anchor keeps the section as it is.
-/
def handleRodata (table : Rom.Table) (options : Options) (line : String) (registers : Registers)
    : Except Halt Handled :=
  match registers.literal with
  | some literal =>
      match payload? line with
      | some payload =>
          (registers.decode line payload).map fun bytes =>
            { registers :=
                { registers with part := .rodata, literal := some (literal.add line bytes) }
              again := false }
      | none =>
          .ok
            { registers :=
                { registers.finishLiteral table options literal with part := .rodata }
              again := true }
  | none =>
      if isSectionSwitch line then
        .ok { registers := { registers with part := .outside }, again := true }
      else if registers.leftAlone then
        .ok { registers := { registers.write [line] with part := .rodata }, again := false }
      else if isAnchor line then
        .ok
          { registers := { (registers.keepSection options).write [line] with part := .rodata }
            again := false }
      else
        match label? line with
        | some label =>
            .ok
              { registers :=
                  { registers with
                    part := .rodata
                    literal := some { label, number := registers.number, lines := [line] } }
                again := false }
        | none =>
            .ok { registers := { registers.write [line] with part := .rodata }, again := false }

/-- The line is an element of the object that is open. -/
def accept (registers : Registers) (object : OpenObject) (line : String) (stage : Element)
    : Handled :=
  { registers := { registers with part := .object, object := some (object.add line stage) }
    again := false }

/-- A type line has to come, of an object. -/
def expectType (options : Options) (line : String) (registers : Registers) (object : OpenObject)
    : Handled :=
  match typeOf? line with
  | none => registers.abort options object .noType
  | some (symbol, kind) =>
      if kind = "object" then registers.accept { object with symbol := some symbol } line .type
      else registers.abort options object (.typeIs kind)

/-- The symbol's label has to come. A symbol that is missing is shown as a word in its place. -/
def expectLabel (options : Options) (line : String) (registers : Registers) (object : OpenObject)
    : Handled :=
  if (label? line).any fun label => some label = object.symbol then
    registers.accept object line .label
  else
    registers.abort options object (.noLabel (object.symbol.getD "None"))

/-- The one payload has to come. -/
def expectPayload (options : Options) (line : String) (registers : Registers)
    (object : OpenObject)
    : Except Halt Handled :=
  match payload? line with
  | none => .ok (registers.abort options object .noPayload)
  | some payload =>
      (registers.decode line payload).map fun bytes =>
        registers.accept { object with bytes } line .payload

/-- One more line of an object that is not complete, up to its label. -/
def goOn (options : Options) (line : String) (registers : Registers) (object : OpenObject)
    : Handled :=
  if isAlign line then registers.accept object line object.stage
  else
    match object.stage with
    | .opening =>
        match anchorDefinition? line with
        | some anchor => registers.accept { object with anchor := some anchor } line .anchor
        | none => expectType options line registers object
    | .anchor => expectType options line registers object
    | .type =>
        if (sizeOf? line).any fun size => some size.1 = object.symbol then
          registers.accept object line .size
        else
          expectLabel options line registers object
    | _ => expectLabel options line registers object

/-- In the section of an object, its section line opens it and the grammar leads on. -/
def handleObject (table : Rom.Table) (options : Options) (line : String) (registers : Registers)
    : Except Halt Handled :=
  match registers.object with
  | none =>
      .ok
        { registers :=
            { registers with
              part := .object
              object := some { number := registers.number, lines := [line] } }
          again := false }
  | some object =>
      match object.stage with
      | .payload =>
          if (payload? line).isSome then .ok (registers.abort options object .secondPayload)
          else
            (registers.finishObject table options object).map fun closed =>
              { registers := { closed with part := .outside }, again := true }
      | .label => expectPayload options line registers object
      | _ => .ok (goOn options line registers object)

/-- The handler of the part that the scan is in. -/
def handle (table : Rom.Table) (options : Options) (line : String) (registers : Registers)
    : Except Halt Handled :=
  match registers.part with
  | .outside => .ok (handleOutside line registers)
  | .rodata => handleRodata table options line registers
  | .object => handleObject table options line registers

end Registers

end RomStrings.Scan
