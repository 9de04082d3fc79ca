import RomStrings.Proofs.Scan.ObjectGrammar

/-!
An opening line and what stands behind it. The scan collects an object for as long as the grammar
goes on, and what it settles is decided by the first line that does not.
-/

namespace RomStrings

open Assembly

namespace Scan

variable {table : Rom.Table} {scanner : Scanner} {opening : String}

-----------------------------------------------------------------------------------------
-- Runs through an object
-----------------------------------------------------------------------------------------

/-- The segments that a scan settles as it goes on with the lines, up to the first line at fault. -/
def Scanner.settles (table : Rom.Table) (scanner : Scanner) (lines : List String)
    : List Segment :=
  (scanner.course table [] lines).steps.flatMap Step.settled

/-- The scanner with the lines counted as read. -/
def Scanner.past (scanner : Scanner) (lines : List String) : Scanner :=
  { scanner with linesRead := scanner.linesRead + lines.length }

/-- Behind a run, a scan settles what it settles from there on, by induction on the run. -/
theorem Reads.settles_append {middle : Scanner} {lines : List String} {settled : List Segment}
    (run : Reads table scanner lines settled middle) (more : List String)
    : scanner.settles table (lines ++ more) = settled ++ middle.settles table more := by
  induction run with
  | nil => rfl
  | @cons scanner line step lines settled last fed _ ih =>
      simp only [Scanner.settles] at ih ⊢
      rw [List.cons_append, course_cons _ fed, List.flatMap_cons, ih, List.append_assoc]

/-- Outside read-only data, an opening line and the lines from which a stage is reached are taken as
an object at that stage. By induction on the lines from the last one on.
-/
theorem reads_object (table : Rom.Table) (outside : scanner.mode = .outside)
    (opens : isFunctionSection opening = true) {stage : FunctionStage} {lines : List String}
    (spelled : stage.Spelled lines)
    : ∃ last,
        Reads table scanner (opening :: lines) [] last
        ∧ last.mode
          = .function { number := scanner.linesRead + 1, lines := opening :: lines, stage }
        ∧ last.leftAlone = scanner.leftAlone := by
  induction lines using List.reverseRecOn generalizing stage with
  | nil =>
      obtain rfl := spelled.of_nil
      let taken : Taken :=
        { mode := .function (.start (scanner.linesRead + 1) opening)
          leftAlone := scanner.leftAlone
          settled := [] }
      have takes
          : Takes table (scanner.linesRead + 1) scanner.leftAlone opening scanner.mode taken := by
        rw [outside]
        exact .functionSection opens .entering
      exact ⟨_, .cons takes.feed .nil, rfl, rfl⟩
  | append_singleton lines line ih =>
      obtain ⟨before, earlier, leads⟩ := spelled.exists_leads
      obtain ⟨middle, run, mode, alone⟩ := ih earlier
      let block : FunctionBlock :=
        { number := scanner.linesRead + 1, lines := opening :: lines, stage := before }
      let taken : Taken :=
        { mode := .function (block.add line stage), leftAlone := middle.leftAlone, settled := [] }
      have takes
          : Takes table (middle.linesRead + 1) middle.leftAlone line middle.mode taken := by
        rw [mode]
        exact .accepted (leads.advance _)
      exact ⟨_, run.append (.cons takes.feed .nil), rfl, alone⟩

/-- The lines are settled as the segment, and the scan goes on with the next line as it does outside
read-only data.
-/
structure SettledAs (table : Rom.Table) (scanner : Scanner) (lines : List String) (next : String)
    (rest : List String) (segment : Segment)
    : Prop where
  first : (scanner.settles table (lines ++ next :: rest)).head? = some segment
  goesOn
    : ∀ latest,
        scanner.finish table latest (lines ++ next :: rest)
          = ((scanner.past lines).finish table latest (next :: rest)).map ([segment] ++ ·)

/-- An object is settled where its mode passes the next line on. -/
theorem settledAs_of_passed {middle : Scanner} {lines : List String} {block : FunctionBlock}
    {next : String} {segment : Segment} (outside : scanner.mode = .outside)
    (run : Reads table scanner lines [] middle) (mode : middle.mode = .function block)
    (alone : middle.leftAlone = scanner.leftAlone)
    (passes
      : ∀ taken,
          Takes table (middle.linesRead + 1) middle.leftAlone next .outside taken
          → Takes table (middle.linesRead + 1) middle.leftAlone next (.function block)
              { taken with settled := segment :: taken.settled })
    (rest : List String)
    : SettledAs table scanner lines next rest segment := by
  obtain ⟨taken, takes⟩ :=
    exists_takes_of_outside table (middle.linesRead + 1) middle.leftAlone next
  have passed := passes taken takes
  rw [← mode] at passed
  refine { first := ?_, goesOn := fun latest => ?_ }
  · rw [run.settles_append, List.nil_append, Scanner.settles, course_cons rest passed.feed]
    rfl
  · have passedOn
        : middle.finish table (lines.getLastD latest) (next :: rest)
          = ({ middle with mode := .outside }.finish table latest (next :: rest)).map
              ([segment] ++ ·) :=
      finish_passed takes passed _ rest
    have alike
        : Scanner.finish table { middle with mode := .outside } latest (next :: rest)
          = (scanner.past lines).finish table latest (next :: rest) := by
      refine finish_congr ?_ ?_ ?_ latest _
      · exact outside.symm
      · exact alone
      · exact run.linesRead
    rw [run.finish_pending, passedOn, alike]

-----------------------------------------------------------------------------------------
-- An opening line and what stands behind it
-----------------------------------------------------------------------------------------

open ObjectGrammar

/-- A whole object stands behind the opening line, which has the given number, and no payload stands
behind it. The block is what becomes of it.
-/
inductive Completes (number : Nat) (opening : String) (lines : List String) (next : String)
    : Block → Prop
  | mk {anchor symbol bytes} (object : Object anchor symbol bytes lines)
    (ends : payload? next = none)
    : Completes number opening lines next
        { kind := .function anchor
          number
          lines := opening :: lines
          label := symbol
          bytes }

/-- A payload that does not read stands right behind the label, which is the fault. -/
inductive FailsAt (number : Nat) (lines : List String) (next : String) (fault : Error) : Prop
  | mk {anchor symbol} (labelled : Labelled anchor symbol lines)
    (faulty : PayloadFault number next fault)

/-- The lines behind the opening line of an object are scanned as the grammar has them. -/
structure ScansByGrammar (table : Rom.Table) (scanner : Scanner) (opening : String)
    (lines : List String)
    : Prop where
  /-- The scan settles a block first exactly if the grammar has a whole object there. -/
  completes
    : ∀ block,
        (scanner.settles table (opening :: lines)).head? = some (Segment.ofBlock table block)
        ↔ ∃ before next rest,
            lines = before ++ next :: rest
            ∧ Completes (scanner.linesRead + 1) opening before next block
  settles
    : ∀ {before next rest block},
        lines = before ++ next :: rest
        → Completes (scanner.linesRead + 1) opening before next block
        → SettledAs table scanner (opening :: before) next rest (Segment.ofBlock table block)
  /-- At the line that leaves the grammar, the lines before it are copied and counted as one object
  that was given up.
  -/
  aborts
    : ∀ {before next rest},
        lines = before ++ next :: rest
        → LeavesAt before next
        → ∃ segment,
            (∀ mark, segment.output mark = opening :: before)
            ∧ segment.resolution? = none
            ∧ segment.stats = { abortedFunctions := 1 }
            ∧ SettledAs table scanner (opening :: before) next rest segment
  fails
    : ∀ {before next rest fault},
        lines = before ++ next :: rest
        → FailsAt (scanner.linesRead + (opening :: before).length + 1) before next fault
        → ∀ latest, scanner.finish table latest (opening :: lines) = .error fault
  truncates
    : Begins lines
        → ∃ name, ∀ latest,
            scanner.finish table latest (opening :: lines)
              = .error (.truncated (scanner.linesRead + (opening :: lines).length)
                  (lines.getLastD opening) name)
  /-- One of these happens. -/
  decided
    : Begins lines
      ∨ ∃ before next rest,
          lines = before ++ next :: rest
          ∧ ((∃ block, Completes (scanner.linesRead + 1) opening before next block)
            ∨ LeavesAt before next
            ∨ ∃ fault,
                FailsAt (scanner.linesRead + (opening :: before).length + 1) before next fault)

section Outcomes

variable {before rest : List String} {next : String}

theorem settledAs_of_completes (outside : scanner.mode = .outside)
    (opens : isFunctionSection opening = true) {block : Block}
    (completes : Completes (scanner.linesRead + 1) opening before next block)
    (rest : List String)
    : SettledAs table scanner (opening :: before) next rest (Segment.ofBlock table block) := by
  obtain ⟨part, ends⟩ := completes
  obtain ⟨middle, run, mode, alone⟩ := reads_object table outside opens (.filled part)
  refine settledAs_of_passed outside run mode alone (fun taken takes => ?_) rest
  exact .completed (by simp [FunctionStage.advance, ends]) takes

theorem settledAs_of_leavesAt (outside : scanner.mode = .outside)
    (opens : isFunctionSection opening = true) (leaves : LeavesAt before next)
    (rest : List String)
    : ∃ object reason,
        object.lines = opening :: before
        ∧ SettledAs table scanner (opening :: before) next rest (.aborted object reason) := by
  obtain ⟨stage, spelled⟩ := FunctionStage.begins_iff.mp leaves.begins
  obtain ⟨middle, run, mode, alone⟩ := reads_object table outside opens spelled
  obtain ⟨reason, means⟩ := (leavesAt_iff spelled (middle.linesRead + 1)).mp leaves
  let object : FunctionBlock :=
    { number := scanner.linesRead + 1, lines := opening :: before, stage }
  refine ⟨object, reason, rfl, ?_⟩
  exact settledAs_of_passed outside run mode alone (fun _ takes => .misfit means takes) rest

/-- Nothing is settled before a payload at fault, which ends the scan. -/
theorem finish_of_failsAt (outside : scanner.mode = .outside)
    (opens : isFunctionSection opening = true) {fault : Error}
    (failing : FailsAt (scanner.linesRead + (opening :: before).length + 1) before next fault)
    (rest : List String)
    : scanner.settles table (opening :: before ++ next :: rest) = []
      ∧ ∀ latest,
          scanner.finish table latest (opening :: before ++ next :: rest) = .error fault := by
  obtain ⟨part, faulty⟩ := failing
  obtain ⟨middle, run, mode, -⟩ := reads_object table outside opens (.labelled part)
  have fails : middle.feed table next = .error fault := by
    refine feed_eq_error_iff.mpr ⟨by simp [mode, Mode.decodes, FunctionStage.decodes], ?_⟩
    rwa [run.linesRead]
  refine ⟨?_, fun latest => ?_⟩
  · rw [run.settles_append, Scanner.settles, Scanner.course, fails]
    rfl
  · rw [run.finish_pending, Scanner.finish, fails]

/-- Nothing is settled before the end of the input, which must not come within an object. -/
theorem finish_of_begins (outside : scanner.mode = .outside)
    (opens : isFunctionSection opening = true) {lines : List String} (begins : Begins lines)
    : scanner.settles table (opening :: lines) = []
      ∧ ∃ name, ∀ latest,
          scanner.finish table latest (opening :: lines)
            = .error (.truncated (scanner.linesRead + (opening :: lines).length)
                (lines.getLastD opening) name) := by
  obtain ⟨stage, spelled⟩ := FunctionStage.begins_iff.mp begins
  obtain ⟨middle, run, mode, -⟩ := reads_object table outside opens spelled
  let object : FunctionBlock :=
    { number := scanner.linesRead + 1, lines := opening :: lines, stage }
  refine ⟨run.course.2.1, object.name, fun latest => ?_⟩
  have ended := run.finish_pending latest []
  rw [List.append_nil, Scanner.finish, mode, run.linesRead, List.getLastD_cons] at ended
  exact ended

/-- Lines begin an object to their end, or the first line that does not go on with it decides what
they are. By cases on what that line means to the stage.
-/
theorem begins_or_decided (number : Nat) (opening : String) (lines : List String)
    : Begins lines
      ∨ ∃ before next rest,
          lines = before ++ next :: rest
          ∧ ((∃ block, Completes (number + 1) opening before next block)
            ∨ LeavesAt before next
            ∨ ∃ fault, FailsAt (number + (opening :: before).length + 1) before next fault) := by
  rcases FunctionStage.spelled_or_stops lines
    with spelled | ⟨before, next, rest, stage, rfl, spelled, stops⟩
  · exact .inl (FunctionStage.begins_iff.mpr spelled)
  · refine .inr ⟨before, next, rest, rfl, ?_⟩
    cases means : stage.advance (number + (opening :: before).length + 1) next with
    | error fault =>
        obtain ⟨decodes, faulty⟩ := advance_eq_error_iff.mp means
        cases spelled with
        | labelled part => exact .inr (.inr ⟨fault, part, faulty⟩)
        | opened _ | anchored _ | typed _ _ _ | sized _ _ _ | filled _ => cases decodes
    | ok advance =>
        cases advance with
        | accept other =>
            exact absurd ⟨other, spelled.snoc (FunctionStage.leads_of_advance means)⟩ stops
        | complete anchor symbol bytes =>
            obtain ⟨rfl, ends⟩ := FunctionStage.eq_filled_of_complete means
            cases spelled with
            | filled part => exact .inl ⟨_, .mk part ends⟩
        | misfit reason => exact .inr (.inl ((leavesAt_iff spelled _).mpr ⟨reason, means⟩))

/-- Behind its opening line an object is read line by line as the grammar has it, whatever lines
follow.
-/
theorem scan_by_grammar (table : Rom.Table) (outside : scanner.mode = .outside)
    (opens : isFunctionSection opening = true) (lines : List String)
    : ScansByGrammar table scanner opening lines := by
  refine {
    completes := fun block => ⟨fun first => ?_, ?_⟩
    settles := ?_
    aborts := ?_
    fails := ?_
    truncates := fun begins => (finish_of_begins outside opens begins).2
    decided := begins_or_decided scanner.linesRead opening lines
  }
  · rcases begins_or_decided scanner.linesRead opening lines
      with begins | ⟨before, next, rest, rfl, ⟨own, completes⟩ | leaves | ⟨fault, failing⟩⟩
    · rw [(finish_of_begins outside opens begins).1] at first
      cases first
    · have settled
          : SettledAs table scanner (opening :: before) next rest (Segment.ofBlock table own) :=
        settledAs_of_completes outside opens completes rest
      have same := first.symm.trans settled.first
      have made := congrArg Segment.block? (Option.some.inj same)
      rw [Segment.block?_ofBlock, Segment.block?_ofBlock] at made
      cases made
      exact ⟨before, next, rest, rfl, completes⟩
    · obtain ⟨object, reason, -, settled⟩ := settledAs_of_leavesAt outside opens leaves rest
      have made := congrArg Segment.block? (Option.some.inj (first.symm.trans settled.first))
      rw [Segment.block?_ofBlock] at made
      cases made
    · have nothing : scanner.settles table (opening :: (before ++ next :: rest)) = [] :=
        (finish_of_failsAt outside opens failing rest).1
      rw [nothing] at first
      cases first
  · rintro ⟨before, next, rest, rfl, completes⟩
    exact (settledAs_of_completes outside opens completes rest).first
  · rintro before next rest block rfl completes
    exact settledAs_of_completes outside opens completes rest
  · rintro before next rest rfl leaves
    obtain ⟨object, reason, same, settled⟩ := settledAs_of_leavesAt outside opens leaves rest
    exact ⟨.aborted object reason, fun _ => same, rfl, rfl, settled⟩
  · rintro before next rest fault rfl failing
    exact (finish_of_failsAt outside opens failing rest).2

/-- An object with an anchor and a size, and alignment wherever it may stand, becomes a block. With
a second payload behind the first it is given up.
-/
theorem scan_by_grammar_of_anchored_name
    : let table := Rom.Table.ofImage [104, 105, 0] 4096
      let opening := "\t.section\t.rodata.__func__.1,\"a\",%progbits"
      let object :=
        ["\t.align\t2", "\t.set\t.LANCHOR3,. + 0", "\t.align\t2", "\t.type\t__func__.1, %object",
          "\t.size\t__func__.1, 3", "\t.p2align 2", "__func__.1:", "\t.ascii\t\"hi\\000\""]
      let lines := object ++ ["\t.text"]
      let more := object ++ ["\t.ascii\t\"no\"", "\t.text"]
      ({} : Scanner).mode = .outside
      ∧ isFunctionSection opening = true
      ∧ (Scanner.settles table {} (opening :: lines)).head?.bind Segment.block?
        = some
            { kind := .function (some ".LANCHOR3")
              number := 1
              lines := opening :: object
              label := "__func__.1"
              bytes := [104, 105, 0] }
      ∧ ScansByGrammar table {} opening lines
      ∧ (Scanner.settles table {} (opening :: more)).head?.map Segment.stats
        = some { abortedFunctions := 1 }
      ∧ ScansByGrammar table {} opening more := by
  intro table opening object lines more
  have opens : isFunctionSection opening = true := by decide +kernel
  exact ⟨rfl, opens, by decide +kernel, scan_by_grammar table rfl opens lines, by decide +kernel,
    scan_by_grammar table rfl opens more⟩

end Outcomes

end Scan

end RomStrings
