import RomStrings.Proofs.Scan.Runs

/-!
The outcome of a scan, faults included. A line is at fault only where string data is read into
bytes, and the outcome of a scan that stands anywhere is that of its next line and of what follows.
-/

namespace RomStrings

/-- At the stage, a line of string data is read into bytes. -/
def FunctionStage.decodes : FunctionStage → Bool
  | .labelled _ _ => true
  | _ => false

namespace Scan

open Assembly

variable {table : Rom.Table}

-----------------------------------------------------------------------------------------
-- Lines at fault
-----------------------------------------------------------------------------------------

/-- In the mode, a line of string data is read into bytes. -/
def Mode.decodes : Mode → Bool
  | .literal _ => true
  | .function block => block.stage.decodes
  | .outside | .rodata | .entering => false

/-- The line holds string data that does not read, which is the fault. -/
def PayloadFault (number : Nat) (line : String) (fault : Error) : Prop :=
  ∃ payload,
    payload? line = some payload ∧ payloadBytes number line payload = .error fault

section Fault

variable {number : Nat} {leftAlone : Bool} {line : String} {fault : Error}

/-- Outside read-only data every line is taken, by cases on its section forms. -/
theorem exists_takes_of_outside (table : Rom.Table) (number : Nat) (leftAlone : Bool)
    (line : String)
    : ∃ taken, Takes table number leftAlone line .outside taken := by
  cases opens : isFunctionSection line with
  | true => exact ⟨_, .functionSection opens .entering⟩
  | false =>
      cases rodata : isRodataSection line with
      | true => exact ⟨_, .rodataSection opens rodata⟩
      | false => exact ⟨_, .outside opens rodata⟩

/-- In read-only data every line is taken, by cases on its forms in the order in which they are
tried.
-/
theorem exists_takes_of_rodata (table : Rom.Table) (number : Nat) (leftAlone : Bool)
    (line : String)
    : ∃ taken, Takes table number leftAlone line .rodata taken := by
  cases switches : isSectionSwitch line with
  | true =>
      obtain ⟨taken, next⟩ := exists_takes_of_outside table number leftAlone line
      exact ⟨taken, .sectionSwitch switches next⟩
  | false =>
      cases leftAlone with
      | true => exact ⟨_, .leftAlone switches rfl⟩
      | false =>
          cases anchors : isAnchor line with
          | true => exact ⟨_, .anchor switches rfl anchors⟩
          | false =>
              cases labels : label? line with
              | some label => exact ⟨_, .label switches rfl anchors labels⟩
              | none => exact ⟨_, .other switches rfl anchors labels⟩

/-- A line that is taken is not at fault. -/
theorem Takes.no_fault {mode : Mode} {taken : Taken}
    (takes : Takes table number leftAlone line mode taken)
    : Scan.takeLine table number leftAlone line mode ≠ .error fault := by
  rw [takes.takeLine]
  exact nofun

/-- The grammar of an object is at fault only with its payload, by cases on the stage. -/
theorem advance_eq_error_iff {stage : FunctionStage}
    : stage.advance number line = .error fault
      ↔ stage.decodes = true ∧ PayloadFault number line fault := by
  cases stage with
  | opened | anchored _ | typed _ _ | sized _ _ | filled _ _ _ =>
      simp [FunctionStage.advance, FunctionStage.decodes]
  | labelled anchor symbol =>
      simp only [FunctionStage.advance, FunctionStage.decodes, PayloadFault]
      cases payload? line with
      | none => simp
      | some payload =>
          cases decoded : payloadBytes number line payload <;> simp [decoded, Except.map]

/-- A line is at fault exactly where its string data is read into bytes and does not read, by cases
on the mode.
-/
theorem takeLine_eq_error_iff {mode : Mode}
    : takeLine table number leftAlone line mode = .error fault
      ↔ mode.decodes = true ∧ PayloadFault number line fault := by
  cases mode with
  | outside =>
      obtain ⟨taken, takes⟩ := exists_takes_of_outside table number leftAlone line
      simp [Mode.decodes, takes.no_fault]
  | rodata =>
      obtain ⟨taken, takes⟩ := exists_takes_of_rodata table number leftAlone line
      simp [Mode.decodes, takes.no_fault]
  | entering => simp [Mode.decodes, Takes.entering.no_fault]
  | literal block =>
      cases stores : payload? line with
      | none =>
          obtain ⟨taken, next⟩ := exists_takes_of_rodata table number leftAlone line
          have takes : Takes table number leftAlone line (.literal block) _ :=
            .literalEnds stores next
          simp [PayloadFault, stores, takes.no_fault]
      | some payload =>
          rw [takeLine]
          simp only [readOnce, readLiteral, stores, Mode.decodes, PayloadFault]
          cases decoded : payloadBytes number line payload <;> simp [decoded, Except.map]
  | function block =>
      rw [Mode.decodes, ← advance_eq_error_iff]
      cases advance : block.stage.advance number line with
      | error error =>
          rw [takeLine]
          simp [readOnce, readFunction, advance, Except.map]
      | ok means =>
          obtain ⟨taken, next⟩ := exists_takes_of_outside table number leftAlone line
          cases means with
          | accept stage => simp [(Takes.accepted advance).no_fault]
          | complete anchor symbol bytes => simp [(Takes.completed advance next).no_fault]
          | misfit reason => simp [(Takes.misfit advance next).no_fault]

theorem feed_eq_error_iff {scanner : Scanner}
    : scanner.feed table line = .error fault
      ↔ scanner.mode.decodes = true ∧ PayloadFault (scanner.linesRead + 1) line fault := by
  have failed
      : takeLine table (scanner.linesRead + 1) scanner.leftAlone line scanner.mode = .error fault
        ↔ _ :=
    takeLine_eq_error_iff
  rw [← failed, Scanner.feed]
  cases takeLine table (scanner.linesRead + 1) scanner.leftAlone line scanner.mode <;>
    simp [Except.map]

end Fault

-----------------------------------------------------------------------------------------
-- Going on with a scan
-----------------------------------------------------------------------------------------

/-- The outcome of a scan that goes on with the lines, where the given line is the latest one read.
-/
def Scanner.finish (table : Rom.Table) (scanner : Scanner) (latest : String)
    : List String → Except Error (List Segment)
  | [] =>
      match scanner.mode.openBlock? with
      | some block => .error (.truncated scanner.linesRead latest block)
      | none => .ok []
  | line :: rest =>
      match scanner.feed table line with
      | .error fault => .error fault
      | .ok step => (step.after.finish table line rest).map (step.settled ++ ·)

/-- What a course from the scanner on comes to. -/
def Scanner.close (scanner : Scanner) (latest : String) (lines : List String) (course : Course)
    : Except Error (List Segment) :=
  let last := (course.steps.getLast?.map Step.after).getD scanner
  match course.fault, last.mode.openBlock? with
  | some fault, _ => .error fault
  | none, some block =>
      .error (.truncated (scanner.linesRead + lines.length) (lines.getLastD latest) block)
  | none, none => .ok (course.steps.flatMap Step.settled)

/-- A course is closed by its first step and what follows, as the counts and the last line agree. -/
theorem close_cons {scanner : Scanner} {line : String} {step : Step} (latest : String)
    (lines : List String) (fed : scanner.feed table line = .ok step)
    : scanner.close latest (line :: lines) (scanner.course table [] (line :: lines))
      = (step.after.close line lines (step.after.course table [] lines)).map
          (step.settled ++ ·) := by
  obtain ⟨-, read, -⟩ := feed_eq_ok_iff.mp fed
  have stand (steps : List Step)
      : ((step :: steps).getLast?.map Step.after).getD scanner
        = (steps.getLast?.map Step.after).getD step.after := by
    rw [List.getLast?_cons]
    cases steps.getLast? <;> rfl
  have count : scanner.linesRead + (line :: lines).length
      = step.after.linesRead + lines.length := by
    rw [read, List.length_cons]
    omega
  rw [course_cons lines fed]
  generalize step.after.course table [] lines = course
  obtain ⟨steps, fault⟩ := course
  simp only [Scanner.close, stand, count, List.getLastD_cons, List.flatMap_cons]
  cases fault with
  | some fault => rfl
  | none =>
      cases ((steps.getLast?.map Step.after).getD step.after).mode.openBlock? <;> rfl

/-- A scan that goes on comes to what its course comes to, by induction on the lines. -/
theorem finish_eq_close (scanner : Scanner) (latest : String) (lines : List String)
    : scanner.finish table latest lines
      = scanner.close latest lines (scanner.course table [] lines) := by
  induction lines generalizing scanner latest with
  | nil =>
      simp only [Scanner.finish, Scanner.close, Scanner.course]
      cases opened : scanner.mode.openBlock? <;> simp [opened]
  | cons line rest ih =>
      simp only [Scanner.finish]
      cases fed : scanner.feed table line with
      | error fault => simp [Scanner.close, Scanner.course, fed]
      | ok step => rw [close_cons latest rest fed, ← ih]

/-- The outcome of a scan is that of going on from the start. -/
theorem segments_eq_finish (table : Rom.Table) (lines : List String)
    : Scan.segments table lines = Scanner.finish table {} "" lines := by
  rw [finish_eq_close, Scanner.close, Nat.zero_add]
  rfl

/-- How a scan goes on is a matter of the mode, the section and the lines read, whatever has been
written. By induction on the lines.
-/
theorem finish_congr {scanner own : Scanner} (mode : own.mode = scanner.mode)
    (leftAlone : own.leftAlone = scanner.leftAlone)
    (linesRead : own.linesRead = scanner.linesRead) (latest : String) (lines : List String)
    : own.finish table latest lines = scanner.finish table latest lines := by
  induction lines generalizing scanner own latest with
  | nil => simp only [Scanner.finish, mode, linesRead]
  | cons line rest ih =>
      simp only [Scanner.finish, Scanner.feed, mode, leftAlone, linesRead]
      cases takeLine table (scanner.linesRead + 1) scanner.leftAlone line scanner.mode with
      | error fault => rfl
      | ok taken =>
          refine congrArg (Except.map (taken.settled ++ ·)) (ih ?_ ?_ ?_ line) <;> rfl

/-- Where a line is passed on, the scan settles what was pending and goes on from the next mode. -/
theorem finish_passed {scanner : Scanner} {next : Mode} {settled : List Segment} {line : String}
    {taken : Taken}
    (takes : Takes table (scanner.linesRead + 1) scanner.leftAlone line next taken)
    (passes
      : Takes table (scanner.linesRead + 1) scanner.leftAlone line scanner.mode
          { taken with settled := settled ++ taken.settled })
    (latest : String) (rest : List String)
    : scanner.finish table latest (line :: rest)
      = ({ scanner with mode := next }.finish table latest (line :: rest)).map (settled ++ ·) := by
  have goesOn (written other : Nat)
      : Scanner.finish table
          { mode := taken.mode
            leftAlone := taken.leftAlone
            linesRead := scanner.linesRead + 1
            linesWritten := written } line rest
        = Scanner.finish table
            { mode := taken.mode
              leftAlone := taken.leftAlone
              linesRead := scanner.linesRead + 1
              linesWritten := other } line rest := by
    refine finish_congr ?_ ?_ ?_ line rest <;> rfl
  simp only [Scanner.finish, Scanner.feed, takes.takeLine, passes.takeLine, Except.map]
  rw [goesOn _ (scanner.linesWritten + Segments.height taken.settled)]
  split <;> simp

/-- A line that is no payload settles the literal that is open. -/
theorem finish_literalEnds {scanner : Scanner} {literal : Literal} {line : String}
    (mode : scanner.mode = .literal literal) (ends : payload? line = none) (latest : String)
    (rest : List String)
    : scanner.finish table latest (line :: rest)
      = ({ scanner with mode := .rodata }.finish table latest (line :: rest)).map
          ([Segment.ofLiteral table literal] ++ ·) := by
  obtain ⟨taken, takes⟩ :=
    exists_takes_of_rodata table (scanner.linesRead + 1) scanner.leftAlone line
  exact finish_passed takes (mode ▸ .literalEnds ends takes) latest rest

/-- Behind a run, a scan goes on from where the run left it, by induction on the run. -/
theorem Reads.finish_append {scanner middle : Scanner} {first : List String}
    {settled : List Segment} (run : Reads table scanner first settled middle) (latest : String)
    (second : List String)
    : scanner.finish table latest (first ++ second)
      = (middle.finish table (first.getLastD latest) second).map (settled ++ ·) := by
  induction run generalizing latest with
  | @nil scanner =>
      cases done : scanner.finish table latest second <;> simp [done, Except.map]
  | @cons scanner line step lines settled last fed _ ih =>
      rw [List.cons_append, Scanner.finish, fed, List.getLastD_cons]
      simp only [ih]
      cases Scanner.finish table last (lines.getLastD line) second <;> simp [Except.map]

/-- Where all lines are taken, the scan goes on with those behind them. -/
theorem Reads.segments_append {lines : List String} {last : Scanner} {settled : List Segment}
    (run : Reads table {} lines settled last) (more : List String)
    : Scan.segments table (lines ++ more)
      = (last.finish table (lines.getLastD "") more).map (settled ++ ·) := by
  rw [segments_eq_finish, run.finish_append]

/-- Where the run settles nothing, the scan comes to what it comes to from there on. -/
theorem Reads.finish_pending {scanner middle : Scanner} {first : List String}
    (run : Reads table scanner first [] middle) (latest : String) (second : List String)
    : scanner.finish table latest (first ++ second)
      = middle.finish table (first.getLastD latest) second := by
  rw [run.finish_append]
  cases Scanner.finish table middle (first.getLastD latest) second <;> rfl

end Scan

end RomStrings
