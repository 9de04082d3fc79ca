import RomStrings.Scan.Mode

/-!
The scan: a line is read until some mode takes it, and a history is kept of where the scan stands
after every line. What a scan gives is the segments that it settles, or the fault that ends it. A
scanner may be used again, whatever it was in the middle of.
-/

namespace RomStrings.Scan

/-- Where a scan stands between two lines: its mode, whether an anchor has the present or latest
section left alone, and the numbers of lines read and written so far.
-/
structure Scanner where
  mode : Mode := .outside
  leftAlone : Bool := false
  linesRead : Nat := 0
  linesWritten : Nat := 0
  deriving DecidableEq, Repr

/-- What taking a line comes to. -/
structure Taken where
  mode : Mode
  leftAlone : Bool
  settled : List Segment

/-- Read a line in one mode after another, until one takes it. -/
def takeLine (table : Rom.Table) (number : Nat) (leftAlone : Bool) (line : String) (mode : Mode)
    : Except Error Taken :=
  match readOnce table number leftAlone line mode with
  | .error fault => .error fault
  | .ok (.taken mode leftAlone settled) => .ok { mode, leftAlone, settled }
  | .ok (.passed next _ settled) =>
      (takeLine table number leftAlone line next).map fun taken =>
        { taken with settled := settled ++ taken.settled }
termination_by mode.rank

/-- A line taken: where the scan stands after it, and the segments that it settled. -/
structure Step where
  after : Scanner
  settled : List Segment

/-- Take the next line. -/
def Scanner.feed (table : Rom.Table) (scanner : Scanner) (line : String) : Except Error Step :=
  (takeLine table (scanner.linesRead + 1) scanner.leftAlone line scanner.mode).map fun taken =>
    { after :=
        { mode := taken.mode
          leftAlone := taken.leftAlone
          linesRead := scanner.linesRead + 1
          linesWritten := scanner.linesWritten + Segments.height taken.settled }
      settled := taken.settled }

/-- The steps of a scan, up to the first line that could not be taken, and the fault in that line.
-/
structure Course where
  steps : List Step
  fault : Option Error

/-- Take lines for as long as they can be taken, behind steps taken before, latest first. -/
def Scanner.course (table : Rom.Table) (scanner : Scanner) (before : List Step)
    : List String → Course
  | [] => { steps := before.reverse, fault := none }
  | line :: rest =>
      match scanner.feed table line with
      | .error fault => { steps := before.reverse, fault := some fault }
      | .ok step => step.after.course table (step :: before) rest

/-- A course goes on from the steps before it, by induction on the lines. -/
theorem Scanner.course_eq (table : Rom.Table) (scanner : Scanner) (before : List Step)
    (lines : List String)
    : scanner.course table before lines
      = { scanner.course table [] lines with
          steps := before.reverse ++ (scanner.course table [] lines).steps } := by
  induction lines generalizing scanner before with
  | nil => simp [Scanner.course]
  | cons line rest ih =>
      simp only [Scanner.course]
      cases scanner.feed table line with
      | error fault => simp
      | ok step =>
          simp only
          rw [ih, ih _ [step]]
          simp

/-- The scanner at the start of an input. -/
def Scanner.reset (scanner : Scanner) : Scanner :=
  { scanner with mode := .outside, leftAlone := false, linesRead := 0, linesWritten := 0 }

/-- A scan of an input. -/
structure History where
  lines : List String
  course : Course

namespace History

def segments (history : History) : List Segment :=
  history.course.steps.flatMap Step.settled

/-- Where the scan stands at the end. -/
def last (history : History) : Scanner :=
  (history.course.steps.getLast?.map Step.after).getD {}

/-- The outcome of a scan: its segments, unless a line could not be taken or the input ends inside a
block.
-/
def outcome (history : History) : Except Error (List Segment) :=
  match history.course.fault, history.last.mode.openBlock? with
  | some fault, _ => .error fault
  | none, some block =>
      .error (.truncated history.lines.length (history.lines.getLastD "") block)
  | none, none => .ok history.segments

end History

/-- Scan an input from its start. -/
def Scanner.scan (table : Rom.Table) (scanner : Scanner) (lines : List String) : History :=
  { lines, course := scanner.reset.course table [] lines }

/-- Scan inputs one after another. Each scan begins where the one before it left the scanner. -/
def Scanner.scanEach (table : Rom.Table) (scanner : Scanner) : List (List String) → List History
  | [] => []
  | lines :: rest =>
      let history := scanner.scan table lines
      history :: history.last.scanEach table rest

def history (table : Rom.Table) (lines : List String) : History :=
  Scanner.scan table {} lines

def segments (table : Rom.Table) (lines : List String) : Except Error (List Segment) :=
  (history table lines).outcome

end RomStrings.Scan
