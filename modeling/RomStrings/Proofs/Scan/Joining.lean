import RomStrings.Proofs.Counts
import RomStrings.Proofs.Labels
import RomStrings.Proofs.Scan.Alike
import RomStrings.Proofs.Scan.Region

/-!
Input in two parts. Where the second part starts outside read-only data or with a section line,
nothing that the scan remembers of the first part matters to it, so the whole is scanned as its
parts are.
-/

namespace RomStrings

open Assembly

variable {table : Rom.Table}

-----------------------------------------------------------------------------------------
-- One table
-----------------------------------------------------------------------------------------

/-- Segments that may differ in their numbers only. -/
structure SameButNumbers (mark : String) (segment own : Segment) : Prop where
  output : own.output mark = segment.output mark
  resolution : own.resolution? = segment.resolution?
  stats : own.stats = segment.stats

/-- Blocks looked up in the same table come to the same, by cases on what becomes of them. -/
theorem Segment.Alike.same {segment own : Segment} (alike : Segment.Alike table table segment own)
    (mark : String)
    : SameButNumbers mark segment own := by
  cases alike with
  | copied | anchored | aborted => exact ⟨rfl, rfl, rfl⟩
  | @block block count =>
      have found : Block.find { block with number := count } table = block.find table := rfl
      simp only [Segment.ofBlock, found]
      cases block.find table <;> exact ⟨rfl, rfl, rfl⟩

/-- So do lists of them, by induction on the segments. -/
theorem scanned_of_alike {segments own : List Segment}
    (alike : List.Forall₂ (Segment.Alike table table) segments own) (mark : String)
    : Segments.output mark own = Segments.output mark segments
      ∧ own.filterMap Segment.resolution? = segments.filterMap Segment.resolution?
      ∧ Segments.stats own = Segments.stats segments := by
  induction alike with
  | nil => exact ⟨rfl, rfl, rfl⟩
  | cons first _ ih =>
      obtain ⟨output, resolution, stats⟩ := first.same mark
      obtain ⟨outputs, resolutions, sum⟩ := ih
      refine ⟨?_, ?_, ?_⟩
      · simp only [Segments.output, List.flatMap_cons, output] at outputs ⊢
        rw [outputs]
      · simp only [List.filterMap_cons, resolution, resolutions]
      · rw [Segments.stats_cons, Segments.stats_cons, stats, sum]

namespace Scan

-----------------------------------------------------------------------------------------
-- Where the parts meet
-----------------------------------------------------------------------------------------

/-- The first part ends outside read-only data, or the second part is empty or starts with a line
that may change the section.
-/
def MayFollow (table : Rom.Table) (first second : List String) : Prop :=
  (history table first).last.mode = .outside
  ∨ second = []
  ∨ ∃ line rest, second = line :: rest ∧ isSectionSwitch line = true

/-- A section line is taken in read-only data as it is outside. -/
theorem finish_of_sectionSwitch {scanner : Scanner} {line : String}
    (rodata : scanner.mode = .rodata) (switches : isSectionSwitch line = true) (latest : String)
    (rest : List String)
    : scanner.finish table latest (line :: rest)
      = { scanner with mode := .outside }.finish table latest (line :: rest) := by
  obtain ⟨taken, takes⟩ :=
    exists_takes_of_outside table (scanner.linesRead + 1) scanner.leftAlone line
  have passed : Takes table (scanner.linesRead + 1) scanner.leftAlone line .rodata taken :=
    .sectionSwitch switches takes
  have fed : scanner.feed table line = { scanner with mode := .outside }.feed table line := by
    simp only [Scanner.feed, rodata, passed.takeLine, takes.takeLine]
  simp only [Scanner.finish, fed]

/-- A scanner outside read-only data stands like one at the start, but for the lines behind it. -/
theorem Scanner.alike_start {scanner : Scanner} (outside : scanner.mode = .outside)
    : Scanner.Alike scanner.linesRead {} scanner := by
  refine { stand := ?_, linesRead := (Nat.zero_add _).symm }
  rw [outside]
  exact .outside

/-- Where the second part may follow, a scan goes on as one of the second part starts: outside
read-only data the scanner stands like one at the start, and a section line makes no difference
between there and here.
-/
theorem finish_of_mayFollow {first second : List String} {settled : List Segment}
    {last : Scanner} (run : Reads table {} first settled last)
    (closed : last.mode.openBlock? = none) (follows : MayFollow table first second)
    (latest : String)
    : OutcomesAlike table table first.length (Scan.segments table second)
        (last.finish table latest second) := by
  have read : last.linesRead = first.length := by
    rw [run.linesRead]
    exact Nat.zero_add _
  have stand : (history table first).last = last := by
    obtain ⟨-, -, stand⟩ := run.course
    exact stand
  rw [segments_eq_finish, ← read]
  have outside (start : Scanner) (count : start.linesRead = last.linesRead)
      (outside : start.mode = .outside)
      : OutcomesAlike table table last.linesRead (Scanner.finish table {} "" second)
          (start.finish table latest second) := by
    rw [← count]
    exact finish_alike (Scanner.alike_start outside) (.inr rfl) second
  rcases follows with done | rfl | ⟨line, rest, rfl, switches⟩
  · exact outside last rfl (stand ▸ done)
  · simp only [Scanner.finish, closed]
    exact .ok .nil
  · cases mode : last.mode with
    | outside => exact outside last rfl mode
    | rodata =>
        rw [finish_of_sectionSwitch mode switches]
        exact outside { last with mode := .outside } rfl rfl
    | literal block | function block => simp [mode, Mode.openBlock?] at closed
    | entering => exact absurd mode (stands_start.reads run).resting

-----------------------------------------------------------------------------------------
-- The whole and its parts
-----------------------------------------------------------------------------------------

/-- What a scan gives is what two scans give one after the other. -/
structure Joined (first second whole : Replacement) : Prop where
  lines : whole.lines = first.lines ++ second.lines
  resolution : whole.resolution = first.resolution.insertAll second.resolution
  stats : whole.stats = first.stats + second.stats

/-- Segments alike to those of the second part follow those of the first part. -/
theorem joined_of_alike {earlier later own : List Segment}
    (alike : List.Forall₂ (Segment.Alike table table) later own) (mark : String)
    : Joined (.scanned mark earlier) (.scanned mark later) (.scanned mark (earlier ++ own)) := by
  obtain ⟨output, resolution, stats⟩ := scanned_of_alike alike mark
  refine { lines := ?_, resolution := ?_, stats := ?_ }
  · rw [Segments.output] at output
    simp [Replacement.scanned, Segments.output, output]
  · simp only [Replacement.scanned, Segments.resolution, List.filterMap_append, resolution]
    rw [Resolution.insertAll_ofPairs, Resolution.ofPairs, Resolution.insertAll_append,
      Resolution.ofPairs]
  · simp only [Replacement.scanned, Segments.stats_append, stats]

/-- An input whose first part has the given segments is scanned as its parts are. -/
structure ScansInParts (table : Rom.Table) (mark : String) (first second : List String)
    (earlier : List Segment)
    : Prop where
  /-- The whole scan succeeds exactly if that of the second part does. -/
  succeeds
    : (∃ segments, Scan.segments table (first ++ second) = .ok segments)
      ↔ ∃ later, Scan.segments table second = .ok later
  /-- It gives what the scans of the parts give. -/
  joined
    : ∀ later segments,
        Scan.segments table second = .ok later
        → Scan.segments table (first ++ second) = .ok segments
        → Joined (.scanned mark earlier) (.scanned mark later) (.scanned mark segments)
  /-- A fault in the second part is the fault of the whole, as many lines further on. -/
  fails
    : ∀ fault,
        Scan.segments table second = .error fault
        → Scan.segments table (first ++ second) = .error (fault.behind first.length)

/-- A scan can be cut where no section of read-only data goes on. The scan of the whole goes on
behind the first part's run, from where it stands like a scan at the start.
-/
theorem scan_append {first second : List String} {earlier : List Segment} (options : Options)
    (success : Scan.segments table first = .ok earlier)
    (follows : MayFollow table first second)
    : ScansInParts table options.comment first second earlier := by
  obtain ⟨last, run, closed⟩ := segments_eq_ok_iff.mp success
  have alike := finish_of_mayFollow run closed follows (first.getLastD "")
  have whole := run.segments_append second
  generalize last.finish table (first.getLastD "") second = ending at alike whole
  generalize outcome : Scan.segments table second = own at alike
  cases alike with
  | @ok later matching alike =>
      have succeeds : Scan.segments table (first ++ second) = .ok (earlier ++ matching) := whole
      refine {
        succeeds := iff_of_true ⟨_, succeeds⟩ ⟨later, outcome⟩
        joined := ?_
        fails := fun fault fails => by rw [outcome] at fails; cases fails
      }
      intro given segments found joined
      rw [outcome] at found
      rw [succeeds] at joined
      cases found
      cases joined
      exact joined_of_alike alike options.comment
  | @error fault =>
      have fails : Scan.segments table (first ++ second) = .error (fault.behind first.length) :=
        whole
      refine {
        succeeds := by simp [fails, outcome]
        joined := fun given segments found => by rw [outcome] at found; cases found
        fails := ?_
      }
      intro given found
      rw [outcome] at found
      cases found
      exact fails

/-- Behind a section that an anchor keeps as it is, a second one resolves the label anew. -/
theorem scan_append_past_anchor
    : let table := Rom.Table.ofImage [104, 105, 0] 4096
      let first :=
        ["\t.section\t.rodata", ".LC0:", "\t.string\t\"hi\"", "\t.set\t.LANCHOR0,. + 0"]
      let second := ["\t.section\t.rodata.str1.4", ".LC0:", "\t.string\t\"i\"", "\t.text"]
      ∃ earlier,
        Scan.segments table first = .ok earlier
        ∧ (Replacement.scanned "@" earlier).resolution = [(".LC0", 4096)]
        ∧ (history table first).last
          = { mode := .rodata, leftAlone := true, linesRead := 4, linesWritten := 5 }
        ∧ (Scan.segments table (first ++ second)).toOption.map Segments.resolution
          = some [(".LC0", 4097)]
        ∧ ScansInParts table "@" first second earlier := by
  intro table first second
  have follows : MayFollow table first second :=
    .inr (.inr ⟨_, _, rfl, by decide +kernel⟩)
  obtain ⟨earlier, success, listed, parts⟩ :=
    exists_segments (fun _ success => scan_append {} success follows)
      (show (Scan.segments table first).toOption.map
          (fun segments => (Replacement.scanned "@" segments).resolution)
        = some [(".LC0", 4096)] by decide +kernel)
  exact ⟨earlier, success, listed, by decide +kernel, by decide +kernel, parts⟩

end Scan

end RomStrings
