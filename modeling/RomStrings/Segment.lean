import RomStrings.Assembly.Definition
import RomStrings.Block.Function
import RomStrings.Diagnostic
import RomStrings.Note
import RomStrings.Resolution
import RomStrings.Stats

/-!
Segments: runs of consecutive input lines with what becomes of them. The output, the addresses, the
counts and the notes of a scan are all read off its segments, so they agree with each other.
-/

namespace RomStrings

/-- A run of input lines and what becomes of it. -/
inductive Segment where
  /-- A line that is copied. -/
  | copied (line : String)
  /-- A section anchor, which is copied and keeps the rest of its section as it is. -/
  | anchored (number : Nat) (line : String)
  /-- The lines of an object that did not fit the grammar, which are copied. -/
  | aborted (block : FunctionBlock) (reason : Misfit)
  /-- A block that ROM does not hold, which is copied. -/
  | unmatched (block : Block)
  /-- A block that is taken from ROM. -/
  | resolved (block : Block) (found : Rom.Match)
  deriving Repr

namespace Segment

/-- What becomes of a complete block. -/
def ofBlock (table : Rom.Table) (block : Block) : Segment :=
  match block.find table with
  | some found => .resolved block found
  | none => .unmatched block

/-- What becomes of a literal. A label without payload is none. -/
def ofLiteral (table : Rom.Table) (literal : Literal) : Segment :=
  if literal.payloads.isEmpty then .copied literal.labelLine else ofBlock table literal.block

def source : Segment → List String
  | .copied line => [line]
  | .anchored _ line => [line]
  | .aborted block _ => block.lines
  | .unmatched block => block.lines
  | .resolved block _ => block.lines

def output (mark : String) : Segment → List String
  | .resolved block found =>
      Assembly.replacement mark block.lines block.label block.anchor found.address
  | segment => segment.source

def height : Segment → Nat
  | .resolved block _ =>
      block.lines.length + (Assembly.movedSymbols block.label block.anchor).length
  | segment => segment.source.length

/-- The label that the segment resolves, with its address. -/
def resolution? : Segment → Option (String × Address)
  | .resolved block found => some (block.label, found.address)
  | _ => none

def stats : Segment → Stats
  | .copied _ => {}
  | .anchored _ _ => { anchoredSections := 1 }
  | .aborted _ _ => { abortedFunctions := 1 }
  | .unmatched _ => { unmatched := 1 }
  | .resolved block found =>
      Stats.ofMatch found.kind (block.kind ≠ .literal) block.bytes.length

/-- A note about the line with the given number. -/
def noteAt (file : String) (number : Nat) (text : String) : Note :=
  Note.debug (({ file, line := number } : Location).text ++ ": " ++ text)

def note? (file : String) : Segment → Option Note
  | .copied _ => none
  | .anchored number _ =>
      some (noteAt file number "section anchor, leaving rest of section unchanged")
  | .aborted block reason =>
      some (noteAt file block.number ("not a function name block (" ++ reason.text ++ ")"))
  | .unmatched block =>
      some (noteAt file block.number ("'" ++ block.label ++ "' not found in ROM"))
  | .resolved block found =>
      some (noteAt file block.number ("'" ++ block.label ++ "' -> "
        ++ Address.text found.address ++ " (" ++ found.kind.text ++ ")"))

end Segment

namespace Segments

def output (mark : String) (segments : List Segment) : List String :=
  segments.flatMap (Segment.output mark)

def height (segments : List Segment) : Nat :=
  segments.foldl (fun sum segment => sum + segment.height) 0

def resolution (segments : List Segment) : Resolution :=
  Resolution.ofPairs (segments.filterMap Segment.resolution?)

def stats (segments : List Segment) : Stats :=
  segments.foldl (fun sum segment => sum + segment.stats) {}

def notes (file : String) (segments : List Segment) : List Note :=
  segments.filterMap (Segment.note? file)

end Segments

end RomStrings
