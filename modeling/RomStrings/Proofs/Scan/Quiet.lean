import RomStrings.Proofs.Scan.Layout

/-!
Quiet runs, which take all lines, resolve nothing and leave nothing open. A scan of output is to be
quiet, so what is written of one segment is read here from any region that it may stand in.
-/

namespace RomStrings.Scan

open Assembly

variable {table : Rom.Table}

/-- The scan takes the lines from the mode on, resolves nothing, and leaves nothing open. -/
inductive Quiet (table : Rom.Table) : Nat → Mode → Bool → List String → Prop
  | nil {number mode leftAlone} (closed : mode.openBlock? = none)
    : Quiet table number mode leftAlone []
  | cons {number mode leftAlone line taken lines}
    (takes : Takes table (number + 1) leftAlone line mode taken)
    (unresolved : ∀ segment ∈ taken.settled, segment.isResolved = false)
    (later : Quiet table (number + 1) taken.mode taken.leftAlone lines)
    : Quiet table number mode leftAlone (line :: lines)

/-- A line that settles nothing is quiet. -/
theorem Quiet.pending {number : Nat} {mode next : Mode} {leftAlone alone : Bool} {line : String}
    {lines : List String}
    (takes
      : Takes table (number + 1) leftAlone line mode
          { mode := next, leftAlone := alone, settled := [] })
    (later : Quiet table (number + 1) next alone lines)
    : Quiet table number mode leftAlone (line :: lines) :=
  .cons takes (List.forall_mem_nil _) later

-----------------------------------------------------------------------------------------
-- Quiet runs are scans
-----------------------------------------------------------------------------------------

/-- A quiet run is a run that settles no resolved segment, by induction on it. -/
theorem Quiet.reads {number : Nat} {mode : Mode} {leftAlone : Bool} {lines : List String}
    (quiet : Quiet table number mode leftAlone lines) (written : Nat)
    : ∃ settled last,
        Reads table { mode, leftAlone, linesRead := number, linesWritten := written } lines
          settled last
        ∧ last.mode.openBlock? = none
        ∧ ∀ segment ∈ settled, segment.isResolved = false := by
  induction quiet generalizing written with
  | nil closed => exact ⟨[], _, .nil, closed, List.forall_mem_nil _⟩
  | @cons number mode leftAlone line taken _ takes unresolved _ ih =>
      obtain ⟨settled, last, run, closed, rest⟩ := ih (written + Segments.height taken.settled)
      let scanner : Scanner := { mode, leftAlone, linesRead := number, linesWritten := written }
      have fed : scanner.feed table line = .ok (taken.step scanner) := Takes.feed takes
      exact ⟨_, last, .cons fed run, closed, List.forall_mem_append.mpr ⟨unresolved, rest⟩⟩

/-- A run that settles no resolved segment is quiet, by induction on it. -/
theorem Reads.quiet {scanner last : Scanner} {lines : List String} {settled : List Segment}
    (run : Reads table scanner lines settled last) (closed : last.mode.openBlock? = none)
    (unresolved : ∀ segment ∈ settled, segment.isResolved = false)
    : Quiet table scanner.linesRead scanner.mode scanner.leftAlone lines := by
  induction run with
  | nil => exact .nil closed
  | cons fed _ ih =>
      obtain ⟨takes, read, -⟩ := feed_eq_ok_iff.mp fed
      obtain ⟨first, others⟩ := List.forall_mem_append.mp unresolved
      have later := ih closed others
      rw [read] at later
      exact .cons takes first later

/-- The scan of an input is quiet exactly if it succeeds and resolves nothing. -/
theorem quiet_iff {lines : List String}
    : Quiet table 0 .outside false lines
      ↔ ∃ segments,
          Scan.segments table lines = .ok segments
          ∧ ∀ segment ∈ segments, segment.isResolved = false := by
  constructor
  · intro quiet
    obtain ⟨settled, last, run, closed, unresolved⟩ := quiet.reads 0
    exact ⟨settled, segments_eq_ok_iff.mpr ⟨last, run, closed⟩, unresolved⟩
  · intro given
    obtain ⟨segments, success, unresolved⟩ := given
    obtain ⟨last, run, closed⟩ := segments_eq_ok_iff.mp success
    exact run.quiet closed unresolved

/-- A quiet run can be cut between any two of its lines, where it stands in step with the lines, by
induction on the lines before the cut.
-/
theorem Quiet.split {number : Nat} {mode : Mode} {leftAlone : Bool}
    {seen lines more : List String} (stands : Stands seen mode leftAlone)
    (quiet : Quiet table number mode leftAlone (lines ++ more))
    : ∃ number mode leftAlone,
        Stands (seen ++ lines) mode leftAlone ∧ Quiet table number mode leftAlone more := by
  induction lines generalizing number mode leftAlone seen with
  | nil => exact ⟨number, mode, leftAlone, by simpa using stands, quiet⟩
  | cons line rest ih =>
      cases quiet with
      | cons takes _ later =>
          obtain ⟨number, mode, leftAlone, stands, quiet⟩ := ih (stands.takes takes) later
          exact ⟨number, mode, leftAlone, by simpa using stands, quiet⟩

-----------------------------------------------------------------------------------------
-- Quiet runs from a region on
-----------------------------------------------------------------------------------------

/-- A scan is quiet from the region on, wherever it is in the input and whatever the flag of a
section that is over.
-/
def QuietFrom (table : Rom.Table) (region : Region) (lines : List String) : Prop :=
  ∀ number,
    match region with
    | .outside => ∀ leftAlone, Quiet table number .outside leftAlone lines
    | .rodata anchored => Quiet table number .rodata anchored lines

theorem quietFrom_nil (region : Region) : QuietFrom table region [] := by
  intro number
  cases region with
  | outside => exact fun _ => .nil rfl
  | rodata anchored => exact .nil rfl

/-- Outside read-only data, a line that opens no object is copied. -/
theorem exists_takes_outside {line : String} {lines : List String}
    (notFunction : isFunctionSection line = false)
    (quiet : QuietFrom table (Region.outside.after line) lines) (number : Nat) (leftAlone : Bool)
    : ∃ taken,
        Takes table (number + 1) leftAlone line .outside taken
        ∧ (∀ segment ∈ taken.settled, segment.isResolved = false)
        ∧ Quiet table (number + 1) taken.mode taken.leftAlone lines := by
  have copied : ∀ segment ∈ [Segment.copied line], segment.isResolved = false := by
    simp [Segment.isResolved]
  cases opens : isRodataSection line with
  | true =>
      rw [after_of_rodataSection notFunction opens] at quiet
      exact ⟨_, .rodataSection notFunction opens, copied, quiet (number + 1)⟩
  | false =>
      rw [after_outside (.inl opens)] at quiet
      exact ⟨_, .outside notFunction opens, copied, quiet (number + 1) leftAlone⟩

/-- A line that opens no block is quiet, by cases on the region and the forms of the line. -/
theorem QuietFrom.line {region : Region} {line : String} {lines : List String}
    (notFunction : isFunctionSection line = false)
    (unlabelled : isSectionSwitch line = false → region = .rodata false → label? line = none)
    (quiet : QuietFrom table (region.after line) lines)
    : QuietFrom table region (line :: lines) := by
  intro number
  have copied : ∀ segment ∈ [Segment.copied line], segment.isResolved = false := by
    simp [Segment.isResolved]
  cases region with
  | outside =>
      intro leftAlone
      obtain ⟨taken, takes, unresolved, later⟩ :=
        exists_takes_outside notFunction quiet number leftAlone
      exact .cons takes unresolved later
  | rodata anchored =>
      cases switches : isSectionSwitch line with
      | true =>
          rw [after_of_switch .outside switches] at quiet
          obtain ⟨taken, takes, unresolved, later⟩ :=
            exists_takes_outside notFunction quiet number anchored
          exact .cons (.sectionSwitch switches takes) unresolved later
      | false =>
          simp only [Region.after, switches] at quiet
          cases anchored with
          | true => exact .cons (.leftAlone switches rfl) copied (quiet (number + 1))
          | false =>
              cases anchors : isAnchor line with
              | true =>
                  rw [anchors] at quiet
                  exact .cons (.anchor switches rfl anchors) (by simp [Segment.isResolved])
                    (quiet (number + 1))
              | false =>
                  rw [anchors] at quiet
                  exact .cons (.other switches rfl anchors (unlabelled switches rfl)) copied
                    (quiet (number + 1))

-----------------------------------------------------------------------------------------
-- Blocks of quiet runs
-----------------------------------------------------------------------------------------

/-- A literal is resolved if it stores data that ROM holds. -/
theorem isResolved_ofLiteral {literal : Literal}
    : (Segment.ofLiteral table literal).isResolved = false
      ↔ literal.payloads = [] ∨ table.matchLiteral literal.bytes = none := by
  simp only [Segment.ofLiteral]
  cases literal.payloads with
  | nil => simp [Segment.isResolved]
  | cons pair rest =>
      simp only [List.isEmpty_cons, Bool.false_eq_true, if_false, reduceCtorEq, false_or,
        Segment.ofBlock, Block.find, Literal.block]
      cases table.matchLiteral literal.bytes <;> simp [Segment.isResolved]

/-- An open literal takes payload lines and is settled by the line behind them, by induction on the
payload lines.
-/
theorem quiet_payloads {pairs : List (String × Bytes)} {next : String} {lines : List String}
    {literal : Literal} (number : Nat)
    (stores
      : ∀ pair ∈ pairs, ∃ payload, payload? pair.1 = some payload ∧ payload.bytes = .ok pair.2)
    (unresolved
      : (Segment.ofLiteral table
          { literal with payloads := literal.payloads ++ pairs }).isResolved = false)
    (ends : payload? next = none) (quiet : QuietFrom table (.rodata false) (next :: lines))
    : Quiet table number (.literal literal) false (pairs.map Prod.fst ++ next :: lines) := by
  induction pairs generalizing literal number with
  | nil =>
      rw [List.append_nil] at unresolved
      cases quiet number with
      | cons takes rest later =>
          exact .cons (.literalEnds ends takes) (List.forall_mem_cons.mpr ⟨unresolved, rest⟩)
            later
  | cons pair pairs ih =>
      obtain ⟨⟨payload, known, decodes⟩, others⟩ := List.forall_mem_cons.mp stores
      refine .pending (.payload known decodes) (ih (number + 1) others ?_)
      simpa [Literal.add] using unresolved

/-- A literal that ROM does not hold is quiet where it is read. -/
theorem QuietFrom.literal {literal : Literal} {next : String} {lines : List String}
    (collected : literal.Collected)
    (unresolved : (Segment.ofLiteral table literal).isResolved = false)
    (ends : payload? next = none) (quiet : QuietFrom table (.rodata false) (next :: lines))
    : QuietFrom table (.rodata false) (literal.lines ++ next :: lines) := by
  intro number
  obtain ⟨stays, labels, stores⟩ := collected
  refine .pending (.label stays rfl (isAnchor_of_label? labels) labels) ?_
  -- The number of the label line is all that may differ, and nothing is looked up by it.
  refine quiet_payloads (number + 1) stores ?_ ends quiet
  rw [isResolved_ofLiteral] at unresolved ⊢
  exact unresolved

/-- The line ends an object at the stage without its being taken from ROM. -/
inductive EndsQuietly (table : Rom.Table) (stage : FunctionStage) (next : String) : Prop
  | misfit {number reason} (ends : stage.advance number next = .ok (.misfit reason))
  | complete {number anchor symbol bytes}
    (ends : stage.advance number next = .ok (.complete anchor symbol bytes))
    (unmatched : table.matchFunction bytes = none)

theorem EndsQuietly.formless {stage : FunctionStage} {next other : String}
    (ends : EndsQuietly table stage next) (formless : Formless next) (also : Formless other)
    : EndsQuietly table stage other := by
  have stops (number : Nat) : stage.advance number other = stage.advance number next := by
    rw [FunctionStage.advance_of_formless formless, FunctionStage.advance_of_formless also]
  cases ends with
  | misfit ends => exact .misfit ((stops _).trans ends)
  | complete ends unmatched => exact .complete ((stops _).trans ends) unmatched

/-- The lines of an object lead to its stage, from any region, by induction on the lines. -/
theorem quietFrom_object_lines {object : FunctionBlock} {lines : List String}
    (collected : object.Collected) (region : Region)
    (quiet
      : ∀ number leftAlone (block : FunctionBlock),
          block.stage = object.stage → Quiet table number (.function block) leftAlone lines)
    : QuietFrom table region (object.lines ++ lines) := by
  induction collected generalizing lines with
  | @start _ line opens =>
      intro number
      have enters (leftAlone : Bool)
          : Takes table (number + 1) leftAlone line .outside
              { mode := .function (.start (number + 1) line), leftAlone, settled := [] } :=
        .functionSection opens .entering
      cases region with
      | outside => exact fun leftAlone => .pending (enters leftAlone) (quiet _ _ _ rfl)
      | rodata anchored =>
          have switches := isSectionSwitch_of_isFunctionSection opens
          exact .pending (.sectionSwitch switches (enters anchored)) (quiet _ _ _ rfl)
  | @add block number line stage _ accepts ih =>
      rw [FunctionBlock.add, List.append_assoc]
      refine ih ?_
      intro number leftAlone other same
      rw [← same] at accepts
      exact .pending (.accepted (FunctionStage.advance_number accepts _)) (quiet _ _ _ rfl)

/-- An object that ROM does not hold is quiet from any region. -/
theorem QuietFrom.object {object : FunctionBlock} {region : Region} {next : String}
    {lines : List String} (collected : object.Collected)
    (ends : EndsQuietly table object.stage next)
    (quiet : QuietFrom table .outside (next :: lines))
    : QuietFrom table region (object.lines ++ next :: lines) := by
  refine quietFrom_object_lines collected region ?_
  intro number leftAlone block same
  cases quiet number leftAlone with
  | cons takes unresolved later =>
      rw [← same] at ends
      cases ends with
      | misfit ends =>
          have ends := FunctionStage.advance_number ends (number + 1)
          exact .cons (.misfit ends takes) (List.forall_mem_cons.mpr ⟨rfl, unresolved⟩) later
      | @complete _ anchor symbol bytes ends unmatched =>
          have ends := FunctionStage.advance_number ends (number + 1)
          have kept
              : (Segment.ofBlock table (block.complete anchor symbol bytes)).isResolved
                = false := by
            simp [Segment.ofBlock, Block.find, FunctionBlock.complete, unmatched,
              Segment.isResolved]
          exact .cons (.completed ends takes) (List.forall_mem_cons.mpr ⟨kept, unresolved⟩) later

end RomStrings.Scan
