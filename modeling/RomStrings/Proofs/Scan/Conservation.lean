import RomStrings.Proofs.Counts
import RomStrings.Proofs.Scan.Runs
import RomStrings.Replacement

/-!
No line is lost. The segments that a scan settles, with the lines of the block that is open, make
up the lines read so far, and every segment is written either as it is or as annotations with
definitions behind them.
-/

namespace RomStrings

/-- The input lines of all segments. -/
def Segments.source (segments : List Segment) : List String :=
  segments.flatMap Segment.source

/-- The segment is a block that is taken from ROM. -/
def Segment.isResolved : Segment → Bool
  | .resolved _ _ => true
  | _ => false

/-- The segment is a block that is taken from ROM and moves an anchor with it. -/
def Segment.movesAnchor : Segment → Bool
  | .resolved block _ => block.anchor.isSome
  | _ => false

namespace Scan

variable {table : Rom.Table}

-----------------------------------------------------------------------------------------
-- Lines read and lines pending
-----------------------------------------------------------------------------------------

/-- The lines of the block that is open, which belong to no segment yet. -/
def Mode.pending : Mode → List String
  | .literal block => block.lines
  | .function block => block.lines
  | _ => []

@[simp] theorem source_nil : Segments.source [] = [] := rfl

@[simp] theorem source_cons (segment : Segment) (segments : List Segment)
    : Segments.source (segment :: segments) = segment.source ++ Segments.source segments := by
  simp [Segments.source]

@[simp] theorem source_append (segments later : List Segment)
    : Segments.source (segments ++ later)
      = Segments.source segments ++ Segments.source later := by
  simp [Segments.source]

@[simp] theorem source_ofBlock (block : Block)
    : (Segment.ofBlock table block).source = block.lines := by
  simp only [Segment.ofBlock]
  split <;> rfl

@[simp] theorem source_ofLiteral (block : Literal)
    : (Segment.ofLiteral table block).source = block.lines := by
  simp only [Segment.ofLiteral]
  split
  next bare => simp [Segment.source, Literal.lines, List.isEmpty_iff.mp bare]
  next => exact source_ofBlock block.block

/-- A line taken is settled or pending behind what was pending before, by cases on the rules. -/
theorem Takes.source {number : Nat} {leftAlone : Bool} {line : String} {mode : Mode}
    {taken : Taken}
    (takes : Takes table number leftAlone line mode taken)
    : Segments.source taken.settled ++ taken.mode.pending = mode.pending ++ [line] := by
  induction takes with
  | entering => simp [Mode.pending, FunctionBlock.start]
  | functionSection _ _ ih => exact ih
  | rodataSection _ _ => simp [Mode.pending, Segment.source]
  | outside _ _ => simp [Mode.pending, Segment.source]
  | sectionSwitch _ _ ih => exact ih
  | leftAlone _ _ => simp [Mode.pending, Segment.source]
  | anchor _ _ _ => simp [Mode.pending, Segment.source]
  | label _ _ _ _ => simp [Mode.pending, Literal.lines]
  | other _ _ _ _ => simp [Mode.pending, Segment.source]
  | payload _ _ => simp [Mode.pending, Literal.lines, Literal.add]
  | literalEnds _ _ ih =>
      rw [source_cons, List.append_assoc, ih]
      simp [Mode.pending]
  | accepted _ => simp [Mode.pending, FunctionBlock.add]
  | completed _ _ ih =>
      rw [source_cons, List.append_assoc, ih]
      simp [Mode.pending, FunctionBlock.complete]
  | misfit _ _ ih =>
      rw [source_cons, List.append_assoc, ih]
      simp [Mode.pending, Segment.source]

/-- The lines of a run are settled or pending, by induction on the run. -/
theorem Reads.source {scanner last : Scanner} {lines : List String} {settled : List Segment}
    (run : Reads table scanner lines settled last)
    : Segments.source settled ++ last.mode.pending = scanner.mode.pending ++ lines := by
  induction run with
  | nil => simp
  | cons fed _ ih =>
      have taken := (feed_eq_ok_iff.mp fed).1.source
      rw [source_append, List.append_assoc, ih, ← List.append_assoc, taken]
      simp

theorem Mode.pending_of_closed {mode : Mode} (closed : mode.openBlock? = none)
    : mode.pending = [] := by
  cases mode with
  | outside | rodata | entering => rfl
  | literal block | function block => contradiction

/-- The segments of an input make up its lines. -/
theorem source_segments {lines : List String} {segments : List Segment}
    (success : Scan.segments table lines = .ok segments)
    : Segments.source segments = lines := by
  obtain ⟨last, run, closed⟩ := segments_eq_ok_iff.mp success
  have lines := run.source
  rw [Mode.pending_of_closed closed, List.append_nil] at lines
  exact lines

-----------------------------------------------------------------------------------------
-- What is written, and how much of it
-----------------------------------------------------------------------------------------

@[simp] theorem output_nil (mark : String) : Segments.output mark [] = [] := rfl

@[simp] theorem output_cons (mark : String) (segment : Segment) (segments : List Segment)
    : Segments.output mark (segment :: segments)
      = segment.output mark ++ Segments.output mark segments := by
  simp [Segments.output]

@[simp] theorem output_append (mark : String) (segments later : List Segment)
    : Segments.output mark (segments ++ later)
      = Segments.output mark segments ++ Segments.output mark later := by
  simp [Segments.output]

theorem source_map_copied (lines : List String)
    : Segments.source (lines.map Segment.copied) = lines := by
  induction lines with
  | nil => rfl
  | cons line rest ih => simp [Segment.source, ih]

theorem output_map_copied (mark : String) (lines : List String)
    : Segments.output mark (lines.map Segment.copied) = lines := by
  induction lines with
  | nil => rfl
  | cons line rest ih => simp [Segment.output, Segment.source, ih]

theorem resolutions_map_copied (lines : List String)
    : (lines.map Segment.copied).filterMap Segment.resolution? = [] := by
  simp [Segment.resolution?]

theorem stats_map_copied (lines : List String)
    : Segments.stats (lines.map Segment.copied) = {} := by
  induction lines with
  | nil => rfl
  | cons line rest ih =>
      rw [List.map_cons, Segments.stats_cons, ih]
      rfl

theorem output_of_not_resolved {segment : Segment} (kept : segment.isResolved = false)
    (mark : String)
    : segment.output mark = segment.source := by
  cases segment with
  | resolved block found => contradiction
  | copied _ | anchored _ _ | aborted _ _ | unmatched _ => rfl

/-- A resolved segment is longer than its source by one definition, or by two with an anchor. -/
theorem length_output (mark : String) (segment : Segment)
    : (segment.output mark).length
      = segment.source.length + segment.isResolved.toNat + segment.movesAnchor.toNat := by
  cases kept : segment.isResolved with
  | false =>
      cases segment with
      | resolved block found => contradiction
      | copied _ | anchored _ _ | aborted _ _ | unmatched _ => rfl
  | true =>
      cases segment with
      | resolved block found =>
          cases anchor : block.anchor <;>
            simp [Segment.output, Segment.source, Segment.movesAnchor, Assembly.replacement,
              Assembly.movedSymbols, anchor]
      | copied _ | anchored _ _ | aborted _ _ | unmatched _ => contradiction

/-- How a segment is written: as it is, or as a block taken from ROM. The lines of such a block
stand behind the mark, then its anchor is defined if it is a function's name with one, and then its
label.
-/
inductive Written (mark : String) : Segment → List String → Prop
  | kept {segment} (unresolved : segment.isResolved = false)
    : Written mark segment segment.source
  | literal {block found} (kind : block.kind = .literal)
    : Written mark (.resolved block found)
        (block.lines.map (fun line => mark ++ " " ++ line)
          ++ [block.label ++ " = " ++ Address.text found.address])
  | function {block found} (kind : block.kind = .function none)
    : Written mark (.resolved block found)
        (block.lines.map (fun line => mark ++ " " ++ line)
          ++ [block.label ++ " = " ++ Address.text found.address])
  | anchored {block found anchor} (kind : block.kind = .function (some anchor))
    : Written mark (.resolved block found)
        (block.lines.map (fun line => mark ++ " " ++ line)
          ++ [anchor ++ " = " ++ Address.text found.address,
            block.label ++ " = " ++ Address.text found.address])

/-- Every segment is written in one of these ways, by cases on the kind of its block. -/
theorem written_output (mark : String) (segment : Segment)
    : Written mark segment (segment.output mark) := by
  cases kept : segment.isResolved with
  | false => exact output_of_not_resolved kept mark ▸ .kept kept
  | true =>
      cases segment with
      | copied _ | anchored _ _ | aborted _ _ | unmatched _ => contradiction
      | resolved block found =>
          cases kind : block.kind with
          | literal =>
              have moved : block.anchor = none := by simp [Block.anchor, kind]
              simp only [Segment.output, moved]
              exact .literal kind
          | function anchor =>
              have moved : block.anchor = anchor := by simp [Block.anchor, kind]
              simp only [Segment.output, moved]
              cases anchor with
              | none => exact .function kind
              | some anchor => exact .anchored kind

/-- A segment counts as resolved exactly if it is, by cases on how its block was found. -/
theorem totalResolved_stats (segment : Segment)
    : segment.stats.totalResolved = segment.isResolved.toNat := by
  cases segment with
  | copied _ | anchored _ _ | aborted _ _ | unmatched _ => rfl
  | resolved block found =>
      simp only [Segment.stats, Stats.ofMatch, Segment.isResolved]
      split
      · rfl
      · split <;> rfl

/-- The count of resolved blocks is the number of resolved segments. -/
theorem totalResolved_segments (segments : List Segment)
    : (Segments.stats segments).totalResolved = segments.countP Segment.isResolved :=
  Segments.count_eq_countP Stats.additive_totalResolved fun segment _ => totalResolved_stats segment

/-- The output is longer than the input by one line for every resolved segment and by one for
every anchor moved, by induction on the segments.
-/
theorem length_output_segments (mark : String) (segments : List Segment)
    : (Segments.output mark segments).length
      = (Segments.source segments).length + segments.countP Segment.isResolved
        + segments.countP Segment.movesAnchor := by
  induction segments with
  | nil => rfl
  | cons segment rest ih =>
      have head := length_output mark segment
      simp only [Segments.output, List.flatMap_cons, List.length_append, source_cons,
        List.countP_cons] at ih ⊢
      rw [ih, head]
      cases segment.isResolved <;> cases segment.movesAnchor <;> simp <;> omega

/-- Where nothing is resolved, the output is the input, by induction on the segments. -/
theorem output_eq_source {segments : List Segment}
    (unresolved : ∀ segment ∈ segments, segment.isResolved = false) (mark : String)
    : Segments.output mark segments = Segments.source segments := by
  induction segments with
  | nil => rfl
  | cons segment rest ih =>
      obtain ⟨kept, others⟩ := List.forall_mem_cons.mp unresolved
      have head := output_of_not_resolved kept mark
      have tail := ih others
      rw [source_cons, ← tail, ← head]
      rfl

/-- No line of the input is lost, doubled, moved or altered on the way to the output. -/
structure ConservesLines (mark : String) (lines : List String) (segments : List Segment)
    (scanned : Replacement)
    : Prop where
  /-- The segments are the input, cut into consecutive runs of lines. -/
  source : segments.flatMap Segment.source = lines
  /-- The output is what is written of the segments, in order. -/
  output : scanned.lines = segments.flatMap (Segment.output mark)
  /-- A segment is copied, or annotated with definitions behind it. -/
  written : ∀ segment ∈ segments, Written mark segment (segment.output mark)
  /-- As many segments are resolved as are counted. -/
  resolved : scanned.stats.totalResolved = segments.countP Segment.isResolved
  /-- Each resolved segment adds one line, and one more if it moves an anchor. -/
  length
    : (scanned.lines.length : Int)
      = lines.length + scanned.stats.totalResolved + segments.countP Segment.movesAnchor
  /-- Where nothing is resolved, nothing changes. -/
  unresolved : scanned.stats.totalResolved = 0 → scanned.lines = lines

/-- A scan that succeeds conserves its lines, whatever mark it writes. Its segments make up the
input since every line taken is settled or pending, and nothing is pending at the end.
-/
theorem scan_conserves_lines {lines : List String} {segments : List Segment}
    (options : Options) (success : Scan.segments table lines = .ok segments)
    : ConservesLines options.comment lines segments
        (Replacement.scanned options.comment segments) := by
  have source : Segments.source segments = lines := source_segments success
  have total := totalResolved_segments segments
  refine {
    source
    output := rfl
    written := fun segment _ => written_output options.comment segment
    resolved := total
    length := ?_
    unresolved := ?_
  }
  · have length := length_output_segments options.comment segments
    rw [source] at length
    simp only [Replacement.scanned, total, length]
    omega
  · intro none
    have unresolved : ∀ segment ∈ segments, segment.isResolved = false := by
      have count : segments.countP Segment.isResolved = 0 := by
        simp only [Replacement.scanned, total] at none
        omega
      simpa [List.countP_eq_zero] using count
    rw [← source]
    exact output_eq_source unresolved options.comment

/-- A function's name with an anchor, behind an unmatched literal: six of ten lines are annotated,
and two definitions are added.
-/
theorem scan_conserves_lines_of_anchored_name
    : let table := Rom.Table.ofImage [104, 105, 0] 4096
      let lines :=
        ["\t.section\t.rodata", ".LC0:", "\t.string\t\"no\"",
          "\t.section\t.rodata.__func__.1,\"a\"", "\t.align\t2", "\t.set\t.LANCHOR0,. + 0",
          "\t.type\tf, %object", "f:", "\t.ascii\t\"hi\\000\"", "\t.text"]
      ∃ segments,
        Scan.segments table lines = .ok segments
        ∧ (Replacement.scanned "@" segments).lines
          = ["\t.section\t.rodata", ".LC0:", "\t.string\t\"no\"",
              "@ \t.section\t.rodata.__func__.1,\"a\"", "@ \t.align\t2",
              "@ \t.set\t.LANCHOR0,. + 0", "@ \t.type\tf, %object", "@ f:",
              "@ \t.ascii\t\"hi\\000\"", ".LANCHOR0 = 0x1000", "f = 0x1000", "\t.text"]
        ∧ ConservesLines "@" lines segments (Replacement.scanned "@" segments) := by
  refine exists_segments (fun _ success => scan_conserves_lines {} success) ?_
  decide +kernel

end Scan

end RomStrings
