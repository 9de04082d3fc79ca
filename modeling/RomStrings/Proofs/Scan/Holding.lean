import RomStrings.Proofs.Counts
import RomStrings.Proofs.Scan.Outcome
import RomStrings.Replacement

/-!
A scanner that gathers output, addresses and counts while it reads, and holds on to them and to the
block that is open until it is used again. Since all of it is cleared then, what it gathers is read
off the segments of the present input.
-/

namespace RomStrings.Scan

/-- All that a scanner holds: where it stands, the line read last, and what is gathered so far. -/
structure Holding where
  scanner : Scanner := {}
  latest : String := ""
  lines : List String := []
  resolution : Resolution := []
  stats : Stats := {}
  deriving DecidableEq, Repr

namespace Holding

variable {table : Rom.Table} {mark : String}

/-- Clear what is held of the input before. -/
def reset (holding : Holding) : Holding :=
  { holding with
    scanner := holding.scanner.reset
    latest := ""
    lines := []
    resolution := []
    stats := {} }

/-- Add what a segment is written as, resolves and counts. -/
def gather (mark : String) (holding : Holding) (segment : Segment) : Holding :=
  { holding with
    lines := holding.lines ++ segment.output mark
    resolution := holding.resolution.insertAll segment.resolution?.toList
    stats := holding.stats + segment.stats }

/-- Read one more line. Where it is at fault, nothing is settled by it, and the block that is open
stays so.
-/
def read (table : Rom.Table) (mark : String) (holding : Holding) (line : String)
    : Option Error × Holding :=
  match holding.scanner.feed table line with
  | .error fault =>
      (some fault,
        { holding with
          scanner := { holding.scanner with linesRead := holding.scanner.linesRead + 1 }
          latest := line })
  | .ok step =>
      (none,
        step.settled.foldl (gather mark) { holding with scanner := step.after, latest := line })

/-- Read lines up to the first one at fault. -/
def readAll (table : Rom.Table) (mark : String) (holding : Holding)
    : List String → Option Error × Holding
  | [] => (none, holding)
  | line :: rest =>
      match holding.read table mark line with
      | (some fault, after) => (some fault, after)
      | (none, after) => after.readAll table mark rest

def gathered (holding : Holding) : Replacement :=
  { lines := holding.lines, resolution := holding.resolution, stats := holding.stats }

/-- What an input comes to that ends here. -/
def close (holding : Holding) : Except Error Replacement :=
  match holding.scanner.mode.openBlock? with
  | some block => .error (.truncated holding.scanner.linesRead holding.latest block)
  | none => .ok holding.gathered

/-- Read lines and the end of the input behind them. -/
def readToEnd (table : Rom.Table) (mark : String) (holding : Holding) (lines : List String)
    : Except Error Replacement × Holding :=
  match holding.readAll table mark lines with
  | (some fault, after) => (.error fault, after)
  | (none, after) => (after.close, after)

/-- Scan an input: its outcome, and what is held after it. -/
def scan (table : Rom.Table) (mark : String) (holding : Holding) (lines : List String)
    : Except Error Replacement × Holding :=
  holding.reset.readToEnd table mark lines

/-- The outcomes of inputs that are scanned one after another. -/
def scanEach (table : Rom.Table) (mark : String) (holding : Holding)
    : List (List String) → List (Except Error Replacement)
  | [] => []
  | lines :: rest =>
      let done := holding.scan table mark lines
      done.1 :: done.2.scanEach table mark rest

-----------------------------------------------------------------------------------------
-- What is gathered
-----------------------------------------------------------------------------------------

/-- What is gathered of segments adds up, by induction on them. -/
theorem foldl_gather (mark : String) (holding : Holding) (segments : List Segment)
    : segments.foldl (gather mark) holding
      = { holding with
          lines := holding.lines ++ Segments.output mark segments
          resolution := holding.resolution.insertAll (segments.filterMap Segment.resolution?)
          stats := holding.stats + Segments.stats segments } := by
  induction segments generalizing holding with
  | nil => simp [Segments.output, Segments.stats, Resolution.insertAll, Stats.add_zero]
  | cons segment rest ih =>
      rw [List.foldl_cons, ih]
      have pairs : (segment :: rest).filterMap Segment.resolution?
          = segment.resolution?.toList ++ rest.filterMap Segment.resolution? := by
        cases found : segment.resolution? <;> simp [found]
      simp [gather, pairs, Segments.output, Segments.stats_cons, Stats.add_assoc,
        Resolution.insertAll]

/-- Reading to the end comes to what going on with the scan comes to, gathered behind what is held.
By induction on the lines.
-/
theorem readToEnd_eq (holding : Holding) (lines : List String)
    : (holding.readToEnd table mark lines).1
      = (holding.scanner.finish table holding.latest lines).map fun segments =>
          (segments.foldl (gather mark) holding).gathered := by
  induction lines generalizing holding with
  | nil =>
      simp only [readToEnd, readAll, close, Scanner.finish]
      cases holding.scanner.mode.openBlock? <;> rfl
  | cons line rest ih =>
      simp only [readToEnd, readAll, read, Scanner.finish]
      cases fed : holding.scanner.feed table line with
      | error fault => rfl
      | ok step =>
          have later := ih
            (step.settled.foldl (gather mark)
              { holding with scanner := step.after, latest := line })
          simp only [readToEnd] at later
          rw [later]
          cases done : step.after.finish table line rest <;>
            simp [foldl_gather, gathered, done, Except.map]

/-- Nothing is held behind a reset. -/
theorem reset_eq (holding : Holding) : holding.reset = {} := rfl

theorem gathered_foldl (mark : String) (segments : List Segment)
    : (segments.foldl (gather mark) {}).gathered = Replacement.scanned mark segments := by
  rw [foldl_gather]
  simp only [gathered, List.nil_append, Stats.zero_add]
  rfl

/-- Whatever a scanner holds, a scan gathers what the segments of its input give. -/
theorem scan_eq (table : Rom.Table) (mark : String) (holding : Holding) (lines : List String)
    : (holding.scan table mark lines).1
      = (Scan.segments table lines).map (Replacement.scanned mark) := by
  rw [scan, reset_eq, readToEnd_eq, segments_eq_finish]
  simp only [gathered_foldl]

/-- Inputs that are scanned one after another come to what each comes to by itself, by induction on
the inputs.
-/
theorem scanEach_eq (table : Rom.Table) (mark : String) (holding : Holding)
    (inputs : List (List String))
    : holding.scanEach table mark inputs
      = inputs.map fun lines => (Scan.segments table lines).map (Replacement.scanned mark) := by
  induction inputs generalizing holding with
  | nil => rfl
  | cons lines rest ih => rw [scanEach, ih, scan_eq, List.map_cons]

end Holding

end RomStrings.Scan
