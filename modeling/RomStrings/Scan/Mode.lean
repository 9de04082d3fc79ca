import RomStrings.Segment

/-!
What a scan is in the middle of, between two lines. A line that the present mode does not own is
passed on, always to a mode of lower rank, so a line is read at most four times.
-/

namespace RomStrings.Scan

/-- What a scan is in the middle of. -/
inductive Mode where
  /-- Outside read-only data. -/
  | outside
  /-- In a section of read-only data, with no literal open. -/
  | rodata
  /-- In a section of read-only data, with a literal open. -/
  | literal (block : Literal)
  /-- On the section line of a function-name object, which is still to be read. -/
  | entering
  /-- In the section of a function-name object. -/
  | function (block : FunctionBlock)
  deriving DecidableEq, Repr

/-- A bound on how often a line may still be passed on. -/
def Mode.rank : Mode → Nat
  | .entering => 0
  | .outside => 1
  | .rodata => 2
  | .function _ => 2
  | .literal _ => 3

/-- What messages call the block that is open. -/
def Mode.openBlock? : Mode → Option String
  | .literal block => some block.label
  | .function block => some block.name
  | _ => none

/-- What one reading of a line comes to: the line is taken and the scan goes on in the next mode,
with the rest of the section left alone or not; or it is passed on to a mode of lower rank. Either
way some segments may be settled.
-/
inductive Reading (mode : Mode) where
  | taken (next : Mode) (leftAlone : Bool) (settled : List Segment)
  | passed (next : Mode) (lower : next.rank < mode.rank) (settled : List Segment)

/-- Outside read-only data, only a section line matters. -/
def readOutside (leftAlone : Bool) (line : String) : Reading .outside :=
  if Assembly.isFunctionSection line then
    .passed .entering (Nat.lt_add_one 0) []
  else if Assembly.isRodataSection line then
    .taken .rodata false [.copied line]
  else
    .taken .outside leftAlone [.copied line]

/-- In read-only data a label may open a literal, unless an anchor keeps the section as it is. -/
def readRodata (number : Nat) (leftAlone : Bool) (line : String) : Reading .rodata :=
  if Assembly.isSectionSwitch line then
    .passed .outside (Nat.lt_add_one 1) []
  else if leftAlone then
    .taken .rodata true [.copied line]
  else if Assembly.isAnchor line then
    .taken .rodata true [.anchored number line]
  else
    match Assembly.label? line with
    | some label => .taken (.literal { label, number, labelLine := line }) false []
    | none => .taken .rodata false [.copied line]

/-- A literal goes on for as long as payload lines follow. -/
def readLiteral (table : Rom.Table) (number : Nat) (leftAlone : Bool) (line : String)
    (block : Literal)
    : Except Error (Reading (.literal block)) :=
  match Assembly.payload? line with
  | some payload =>
      (payloadBytes number line payload).map fun bytes =>
        .taken (.literal (block.add line bytes)) leftAlone []
  | none => .ok (.passed .rodata (Nat.lt_add_one 2) [Segment.ofLiteral table block])

/-- A function-name object goes on for as long as its grammar accepts. -/
def readFunction (table : Rom.Table) (number : Nat) (leftAlone : Bool) (line : String)
    (block : FunctionBlock)
    : Except Error (Reading (.function block)) :=
  (block.stage.advance number line).map fun
    | .accept stage => .taken (.function (block.add line stage)) leftAlone []
    | .complete anchor symbol bytes =>
        .passed .outside (Nat.lt_add_one 1)
          [Segment.ofBlock table (block.complete anchor symbol bytes)]
    | .misfit reason => .passed .outside (Nat.lt_add_one 1) [.aborted block reason]

def readOnce (table : Rom.Table) (number : Nat) (leftAlone : Bool) (line : String)
    : (mode : Mode) → Except Error (Reading mode)
  | .outside => .ok (readOutside leftAlone line)
  | .rodata => .ok (readRodata number leftAlone line)
  | .literal block => readLiteral table number leftAlone line block
  | .entering => .ok (.taken (.function (.start number line)) leftAlone [])
  | .function block => readFunction table number leftAlone line block

end RomStrings.Scan
