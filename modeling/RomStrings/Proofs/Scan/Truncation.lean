import RomStrings.Proofs.Scan.ObjectGrammar
import RomStrings.Proofs.Scan.Refinement

/-!
Input that breaks off. Where a block is open behind the last line, the scan fails and names the
block, and it fails so nowhere else: one more line that ends every block is all that such an input
lacks. What is open there can be read off the lines, as it can anywhere.
-/

namespace RomStrings

open Assembly

/-- A copied line adds itself to the output, and nothing else. -/
theorem scanned_snoc_copied (mark : String) (segments : List Segment) (line : String)
    : Replacement.scanned mark (segments ++ [.copied line])
      = { Replacement.scanned mark segments with
          lines := (Replacement.scanned mark segments).lines ++ [line] } := by
  have output : Segments.output mark [.copied line] = [line] := rfl
  have counts : Segments.stats [.copied line] = {} := rfl
  have resolved : [Segment.copied line].filterMap Segment.resolution? = [] := rfl
  simp only [Replacement.scanned, Scan.output_append, output, Segments.stats_append, counts,
    Stats.add_zero, Segments.resolution, List.filterMap_append, resolved, List.append_nil]

/-- An object that a scan collects is spelled by the lines behind its section line, by induction on
the lines collected.
-/
theorem FunctionBlock.Collected.spelled {object : FunctionBlock} (collected : object.Collected)
    : ∃ opening lines,
        object.lines = opening :: lines
        ∧ isFunctionSection opening = true
        ∧ object.stage.Spelled lines := by
  induction collected with
  | @start _ line opens => exact ⟨line, [], rfl, opens, .opened (List.forall_mem_nil _)⟩
  | @add _ _ line _ _ accepts ih =>
      obtain ⟨opening, lines, whole, opens, spelled⟩ := ih
      refine ⟨opening, lines ++ [line], ?_, opens,
        spelled.snoc (FunctionStage.leads_of_advance accepts)⟩
      rw [FunctionBlock.add, whole, List.cons_append]

namespace Scan

variable {table : Rom.Table} {scanner last : Scanner} {lines : List String}
  {settled : List Segment}

-----------------------------------------------------------------------------------------
-- Going on behind a scan
-----------------------------------------------------------------------------------------

theorem formless_text : Formless "\t.text" := by
  constructor <;> decide +kernel

/-- The section line of code ends what is open behind the lines, and is copied. -/
theorem Reads.segments_text (run : Reads table {} lines settled last)
    : ∃ more,
        Scan.segments table (lines ++ ["\t.text"])
          = .ok (settled ++ (more ++ [.copied "\t.text"]))
        ∧ (last.mode.openBlock? = none → more = []) := by
  have outside
      : Takes table (last.linesRead + 1) last.leftAlone "\t.text" .outside
          { mode := .outside
            leftAlone := last.leftAlone
            settled := [.copied "\t.text"] } :=
    .outside (by decide +kernel) (by decide +kernel)
  obtain ⟨more, takes, closed⟩ :=
    exists_takes_of_switch (stands_start.reads run).resting (by decide +kernel) formless_text
      outside
  refine ⟨more, ?_, closed⟩
  rw [run.segments_append, Scanner.finish, takes.feed]
  simp [Scanner.finish, Taken.step, Mode.openBlock?, Except.map]

theorem Reads.no_escape (run : Reads table {} lines settled last) (number : Nat) (line : String)
    (column : Nat) (error : Escape.Error)
    : Scan.segments table lines ≠ .error (.escape number line column error) := by
  intro fails
  have outcome := run.segments_append []
  rw [List.append_nil, fails, Scanner.finish] at outcome
  cases opened : last.mode.openBlock? <;> simp [opened, Except.map] at outcome

/-- Behind a payload that does not decode, no line is read. -/
theorem segments_append_of_escape {number column : Nat} {line : String} {error : Escape.Error}
    (failed : Scan.segments table lines = .error (.escape number line column error))
    (more : List String)
    : Scan.segments table (lines ++ more) = .error (.escape number line column error) := by
  rw [segments_eq_finish] at failed
  cases fails_of_finish failed with
  | @line before own after settled middle _ whole run fails =>
      rw [whole, List.append_assoc, run.segments_append, List.cons_append, Scanner.finish, fails]
      rfl

-----------------------------------------------------------------------------------------
-- What is open at the end
-----------------------------------------------------------------------------------------

/-- The lines break off inside a block: in a literal that is read, which only payload follows, or in
an object, which every line behind its section line goes on with.
-/
inductive BreaksInside (lines : List String) : Prop
  | literal {labelLine payloads} (opened : openAt? lines = some (labelLine, payloads))
    : BreaksInside lines
  | object {before opening behind} (whole : lines = before ++ opening :: behind)
    (opens : isFunctionSection opening = true) (begins : ObjectGrammar.Begins behind)
    : BreaksInside lines

/-- Behind its section line an object is collected for as long as the grammar goes on, whatever was
open before. By induction on the lines from the last one on.
-/
theorem Reads.collects_object {opening : String} {stage : FunctionStage}
    (resting : scanner.mode ≠ .entering) (opens : isFunctionSection opening = true)
    (spelled : stage.Spelled lines)
    (run : Reads table scanner (opening :: lines) settled last)
    : ∃ object, last.mode = .function object ∧ object.stage = stage := by
  induction lines using List.reverseRecOn generalizing stage settled last with
  | nil =>
      obtain rfl := spelled.of_nil
      obtain ⟨own, takes⟩ :=
        exists_takes_of_functionSection table (scanner.linesRead + 1) scanner.leftAlone resting
          opens
      cases run with
      | cons fed rest =>
          rw [takes.feed] at fed
          cases fed
          cases rest
          exact ⟨_, rfl, rfl⟩
  | append_singleton lines line ih =>
      obtain ⟨before, earlier, leads⟩ := spelled.exists_leads
      rw [← List.cons_append] at run
      obtain ⟨middle, first, rest, rfl, front, behind⟩ := run.split
      obtain ⟨object, mode, rfl⟩ := ih earlier front
      have takes
          : Takes table (middle.linesRead + 1) middle.leftAlone line middle.mode
              { mode := .function (object.add line stage)
                leftAlone := middle.leftAlone
                settled := [] } := by
        rw [mode]
        exact .accepted (leads.advance _)
      cases behind with
      | cons fed rest =>
          rw [takes.feed] at fed
          cases fed
          cases rest
          exact ⟨_, rfl, rfl⟩

/-- A block is open behind lines that are all taken exactly if they break off inside one. -/
theorem Reads.open_iff (run : Reads table {} lines settled last)
    : last.mode.openBlock?.isSome = true ↔ BreaksInside lines := by
  have stands := stands_start.reads run
  rw [List.nil_append] at stands
  constructor
  · intro opened
    cases mode : last.mode with
    | outside | rodata | entering => simp [mode, Mode.openBlock?] at opened
    | literal block =>
        have known := stands.opened
        rw [mode] at known
        exact .literal known.symm
    | function object =>
        have collected := stands.collected
        rw [mode] at collected
        obtain ⟨opening, behind, same, opens, spelled⟩ :=
          FunctionBlock.Collected.spelled collected
        have whole : lines = Segments.source settled ++ opening :: behind := by
          rw [← same]
          simpa [mode, Mode.pending] using run.source.symm
        exact .object whole opens (FunctionStage.begins_iff.mpr ⟨_, spelled⟩)
  · rintro (⟨opened⟩ | ⟨rfl, opens, begins⟩)
    · have known := stands.opened.trans opened
      cases mode : last.mode with
      | literal block => rfl
      | outside | rodata | entering | function _ => simp [mode, Mode.opened?] at known
    · obtain ⟨stage, spelled⟩ := FunctionStage.begins_iff.mp begins
      obtain ⟨middle, first, rest, -, front, behind⟩ := run.split
      obtain ⟨object, mode, -⟩ :=
        behind.collects_object (stands_start.reads front).resting opens spelled
      rw [mode]
      rfl

/-- What messages call the block that is open: a literal has its label, and an object the symbol of
its type line, once there is one.
-/
inductive Called : Mode → String → Prop
  | literal {block} (labels : label? block.labelLine = some block.label)
    : Called (.literal block) block.label
  | typed {object symbol} (known : object.stage.symbol? = some symbol)
    (types : ∃ line ∈ object.lines, objectOf? line = some symbol)
    : Called (.function object) symbol
  | untyped {object} (unknown : object.stage.symbol? = none)
    (none : ∀ line ∈ object.lines, objectOf? line = none)
    : Called (.function object) "<function section>"

theorem called_iff {mode : Mode} (collected : mode.Collected) {name : String}
    : Called mode name ↔ mode.openBlock? = some name := by
  constructor
  · intro called
    cases called with
    | literal _ => rfl
    | typed known _ => simp [Mode.openBlock?, FunctionBlock.name, known]
    | untyped unknown _ => simp [Mode.openBlock?, FunctionBlock.name, unknown]
  · intro opened
    cases mode with
    | outside | rodata | entering => cases opened
    | literal block =>
        cases opened
        exact .literal (Literal.Collected.labels collected)
    | function object =>
        cases opened
        have read : ReadOff objectOf? object.lines object.stage.symbol? :=
          (readOffLines_object collected).symbolLine
        cases stage : object.stage.symbol? with
        | some symbol =>
            rw [stage] at read
            have name : object.name = symbol := by rw [FunctionBlock.name, stage]; rfl
            rw [name]
            exact .typed stage read
        | none =>
            rw [stage] at read
            have name : object.name = "<function section>" := by
              rw [FunctionBlock.name, stage]
              rfl
            rw [name]
            exact .untyped stage read

/-- The lines break off in the block that is open. Its lines are the latest ones, the given line is
the last of them, and messages call it by the name.
-/
structure BreaksOff (lines : List String) (mode : Mode) (line name : String) : Prop where
  called : Called mode name
  latest : mode.pending <:+ lines
  collected : mode.pending.getLast? = some line
  last : lines.getLast? = some line

theorem Reads.breaksOff (run : Reads table {} lines settled last) {name : String}
    (opened : last.mode.openBlock? = some name)
    : BreaksOff lines last.mode (lines.getLastD "") name := by
  have collected := (stands_start.reads run).collected
  have whole : Segments.source settled ++ last.mode.pending = lines := run.source
  have same : lines.getLast? = last.mode.pending.getLast? := by
    rw [← whole, List.getLast?_append_of_ne_nil _ (collected.pending_ne_nil opened)]
  have final : lines.getLast? = some (lines.getLastD "") := by
    have known := List.getLast?_eq_some_getLast (collected.pending_ne_nil opened)
    rw [List.getLastD_eq_getLast?, same, known]
    rfl
  exact {
    called := (called_iff collected).mpr opened
    latest := ⟨_, whole⟩
    collected := same.symm.trans final
    last := final
  }

-----------------------------------------------------------------------------------------
-- Truncation
-----------------------------------------------------------------------------------------

/-- A scan fails with an input that breaks off exactly where a block is open behind its last line,
and no such input fails once a line follows that ends the block.
-/
structure ReportsTruncation (table : Rom.Table) (mark : String) (lines : List String) : Prop where
  /-- A payload that does not decode is at fault with the line and without it. -/
  escapes
    : ∀ number line column error,
        Scan.segments table (lines ++ ["\t.text"]) = .error (.escape number line column error)
        ↔ Scan.segments table lines = .error (.escape number line column error)
  /-- Nothing else is at fault with the line. -/
  succeeds
    : (∃ segments, Scan.segments table (lines ++ ["\t.text"]) = .ok segments)
      ↔ ∀ number line column error,
          Scan.segments table lines ≠ .error (.escape number line column error)
  /-- The line adds itself to what is not at fault without it. -/
  adds
    : ∀ segments,
        Scan.segments table lines = .ok segments
        → ∃ more,
            Scan.segments table (lines ++ ["\t.text"]) = .ok more
            ∧ Replacement.scanned mark more
              = { Replacement.scanned mark segments with
                  lines := (Replacement.scanned mark segments).lines ++ ["\t.text"] }
  /-- The fault of an input that breaks off is at its last line, and names the block. -/
  truncated
    : ∀ number line name,
        Scan.segments table lines = .error (.truncated number line name)
        ↔ (history table lines).course.fault = none
          ∧ BreaksOff lines (history table lines).last.mode line name
          ∧ number = lines.length
  /-- Whether a block is open there is a matter of the lines alone. -/
  breaks
    : (∃ number line name, Scan.segments table lines = .error (.truncated number line name))
      ↔ (history table lines).course.fault = none ∧ BreaksInside lines

/-- The fault of an input that breaks off, where all of its lines are taken. -/
theorem Reads.truncated_iff (run : Reads table {} lines settled last) {number : Nat}
    {line name : String}
    : Scan.segments table lines = .error (.truncated number line name)
      ↔ BreaksOff lines last.mode line name ∧ number = lines.length := by
  have outcome := run.segments_append []
  have read : last.linesRead = lines.length := by
    rw [run.linesRead]
    exact Nat.zero_add _
  rw [List.append_nil, Scanner.finish, read] at outcome
  cases opened : last.mode.openBlock? with
  | none =>
      rw [opened] at outcome
      rw [outcome]
      refine iff_of_false (fun failed => by cases failed) fun broken => ?_
      have called := (called_iff (stands_start.reads run).collected).mp broken.1.called
      simp [opened] at called
  | some block =>
      rw [opened] at outcome
      rw [outcome]
      have own := run.breaksOff opened
      constructor
      · intro same
        cases same
        exact ⟨own, rfl⟩
      · rintro ⟨broken, rfl⟩
        have called := (called_iff (stands_start.reads run).collected).mp broken.called
        obtain rfl : block = name := Option.some.inj (opened.symm.trans called)
        obtain rfl : lines.getLastD "" = line := Option.some.inj (own.last.symm.trans broken.last)
        rfl

/-- Where all lines are taken, one more line settles what is open behind them. -/
theorem Reads.reportsTruncation (run : Reads table {} lines settled last) (mark : String)
    : ReportsTruncation table mark lines := by
  obtain ⟨clean, -, stand⟩ := run.course
  have stood : (history table lines).last = last := stand
  have taken : (history table lines).course.fault = none := clean
  obtain ⟨more, whole, closed⟩ := run.segments_text
  exact {
    escapes := fun number line column error =>
      iff_of_false (by simp [whole]) (run.no_escape number line column error)
    succeeds := iff_of_true ⟨_, whole⟩ run.no_escape
    adds := by
      intro segments success
      obtain ⟨own, again, none⟩ := segments_eq_ok_iff.mp success
      obtain rfl := run.unique again
      obtain rfl : settled = segments := run.course.2.1.symm.trans again.course.2.1
      rw [closed none, List.nil_append] at whole
      exact ⟨_, whole, scanned_snoc_copied mark settled "\t.text"⟩
    truncated := by
      intro number line name
      rw [run.truncated_iff, stood, taken]
      exact (and_iff_right rfl).symm
    breaks := by
      rw [taken, ← run.open_iff]
      constructor
      · rintro ⟨number, line, name, fails⟩
        obtain ⟨broken, -⟩ := run.truncated_iff.mp fails
        have opened := (called_iff (stands_start.reads run).collected).mp broken.called
        exact ⟨rfl, Option.isSome_of_eq_some opened⟩
      · rintro ⟨-, opened⟩
        obtain ⟨name, opened⟩ := Option.isSome_iff_exists.mp opened
        exact ⟨_, _, name, run.truncated_iff.mpr ⟨run.breaksOff opened, rfl⟩⟩
  }

/-- Where a payload does not decode, no line behind it changes that, and nothing is truncated. -/
theorem reportsTruncation_of_escape {number column : Nat} {line : String} {error : Escape.Error}
    (fails : Scan.segments table lines = .error (.escape number line column error))
    (mark : String)
    : ReportsTruncation table mark lines := by
  have whole := segments_append_of_escape fails ["\t.text"]
  have faulty : (history table lines).course.fault ≠ none := by
    intro clean
    obtain ⟨settled, last, run⟩ := reads_of_course clean
    exact run.no_escape number line column error fails
  exact {
    escapes := fun _ _ _ _ => by rw [whole, fails]
    succeeds := iff_of_false (by simp [whole]) fun unfailing =>
      unfailing number line column error fails
    adds := fun segments success => by
      rw [fails] at success
      cases success
    truncated := fun _ _ _ => iff_of_false (by simp [fails]) fun broken => faulty broken.1
    breaks := iff_of_false (by simp [fails]) fun broken => faulty broken.1
  }

/-- Truncation is reported exactly where a block is cut off. Either all lines are taken, or a payload
among them does not decode, which is the fault then, with more lines or without.
-/
theorem scan_reports_truncation (table : Rom.Table) (options : Options) (lines : List String)
    : ReportsTruncation table options.comment lines := by
  rcases reads_or_escape table lines
    with ⟨settled, last, run⟩ | ⟨number, line, column, error, fails⟩
  · exact run.reportsTruncation options.comment
  · exact reportsTruncation_of_escape fails options.comment

end Scan

end RomStrings
