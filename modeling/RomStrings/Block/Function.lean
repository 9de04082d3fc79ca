import RomStrings.Block.Basic

/-!
The object that holds a function's name, while its lines are collected. The grammar is a section
line, perhaps an anchor, a type, perhaps a size, a label and one payload; alignment may stand
anywhere before the label. A line that does not fit ends the attempt.
-/

namespace RomStrings

open Assembly

/-- How far the grammar has come, with what it has read. -/
inductive FunctionStage where
  | opened
  | anchored (anchor : String)
  | typed (anchor : Option String) (symbol : String)
  | sized (anchor : Option String) (symbol : String)
  | labelled (anchor : Option String) (symbol : String)
  | filled (anchor : Option String) (symbol : String) (bytes : Bytes)
  deriving DecidableEq, Repr

/-- The symbol, from its type line on. -/
def FunctionStage.symbol? : FunctionStage → Option String
  | .opened => none
  | .anchored _ => none
  | .typed _ symbol => some symbol
  | .sized _ symbol => some symbol
  | .labelled _ symbol => some symbol
  | .filled _ symbol _ => some symbol

/-- Why a line does not fit the grammar. -/
inductive Misfit where
  | secondPayload
  | noType
  | typeIs (kind : String)
  | noLabel (symbol : String)
  | noPayload
  deriving DecidableEq, Repr

def Misfit.text : Misfit → String
  | .secondPayload => "more than one payload line"
  | .noType => "expected .type directive"
  | .typeIs kind => "type is " ++ kind
  | .noLabel symbol => "expected label " ++ symbol ++ ":"
  | .noPayload => "expected .ascii after label"

/-- What a line means to the grammar: it fits and leads on, it stands behind a complete object, or
it does not fit.
-/
inductive Advance where
  | accept (stage : FunctionStage)
  | complete (anchor : Option String) (symbol : String) (bytes : Bytes)
  | misfit (reason : Misfit)
  deriving DecidableEq, Repr

namespace FunctionStage

/-- A type line has to come, of an object. -/
def expectType (anchor : Option String) (line : String) : Advance :=
  match typeOf? line with
  | none => .misfit .noType
  | some (symbol, kind) =>
      if kind = "object" then .accept (.typed anchor symbol) else .misfit (.typeIs kind)

/-- The symbol's label has to come. -/
def expectLabel (anchor : Option String) (symbol line : String) : Advance :=
  if label? line = some symbol then .accept (.labelled anchor symbol) else .misfit (.noLabel symbol)

/-- The line gives the size of the symbol. -/
def isSizeOf (symbol line : String) : Bool :=
  (sizeOf? line).any fun found => found.1 = symbol

/-- An alignment changes nothing; any other line goes to the test. -/
def alignedOr (stage : FunctionStage) (line : String) (advance : Advance) : Advance :=
  if isAlign line then .accept stage else advance

/-- Read one line, which has the given number. Only a payload that does not decode is an error. -/
def advance (number : Nat) (line : String) (stage : FunctionStage) : Except Scan.Error Advance :=
  match stage with
  | .opened =>
      .ok (stage.alignedOr line
        (match anchorDefinition? line with
        | some anchor => .accept (.anchored anchor)
        | none => expectType none line))
  | .anchored anchor => .ok (stage.alignedOr line (expectType (some anchor) line))
  | .typed anchor symbol =>
      .ok (stage.alignedOr line
        (if isSizeOf symbol line then .accept (.sized anchor symbol)
        else expectLabel anchor symbol line))
  | .sized anchor symbol => .ok (stage.alignedOr line (expectLabel anchor symbol line))
  | .labelled anchor symbol =>
      match payload? line with
      | none => .ok (.misfit .noPayload)
      | some payload =>
          (Scan.payloadBytes number line payload).map fun bytes =>
            .accept (.filled anchor symbol bytes)
  | .filled anchor symbol bytes =>
      .ok (if (payload? line).isSome then .misfit .secondPayload
        else .complete anchor symbol bytes)

end FunctionStage

/-- A function-name object so far: the number of its section line, its lines, and its stage. -/
structure FunctionBlock where
  number : Nat
  lines : List String
  stage : FunctionStage
  deriving DecidableEq, Repr

namespace FunctionBlock

def start (number : Nat) (line : String) : FunctionBlock :=
  { number, lines := [line], stage := .opened }

def add (block : FunctionBlock) (line : String) (stage : FunctionStage) : FunctionBlock :=
  { block with lines := block.lines ++ [line], stage }

/-- What messages call the object. -/
def name (block : FunctionBlock) : String :=
  block.stage.symbol?.getD "<function section>"

def complete (block : FunctionBlock) (anchor : Option String) (symbol : String) (bytes : Bytes)
    : Block :=
  { kind := .function anchor
    number := block.number
    lines := block.lines
    label := symbol
    bytes }

end FunctionBlock

end RomStrings
