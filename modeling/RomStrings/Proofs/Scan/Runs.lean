import RomStrings.Proofs.Scan.Taking

/-!
Runs of lines, and the outcome of a scan in terms of them. A scan succeeds exactly if a run takes
all lines and leaves no block open, and every step of its history stands behind such a run.
-/

namespace RomStrings.Scan

variable {table : Rom.Table} {line : String}

/-- A step takes a line by the rules and counts the lines read and written. -/
theorem feed_eq_ok_iff {scanner : Scanner} {step : Step}
    : scanner.feed table line = .ok step
      ↔ Takes table (scanner.linesRead + 1) scanner.leftAlone line scanner.mode
          { mode := step.after.mode, leftAlone := step.after.leftAlone, settled := step.settled }
        ∧ step.after.linesRead = scanner.linesRead + 1
        ∧ step.after.linesWritten = scanner.linesWritten + Segments.height step.settled := by
  rw [← takeLine_eq_ok_iff, Scanner.feed]
  obtain ⟨⟨mode, leftAlone, linesRead, linesWritten⟩, settled⟩ := step
  cases takeLine table (scanner.linesRead + 1) scanner.leftAlone line scanner.mode with
  | error fault => simp [Except.map]
  | ok taken =>
      obtain ⟨nextMode, nextLeftAlone, nextSettled⟩ := taken
      simp only [Except.map, Except.ok.injEq, Step.mk.injEq, Scanner.mk.injEq, Taken.mk.injEq]
      constructor
      · intro given
        obtain ⟨⟨rfl, rfl, rfl, rfl⟩, rfl⟩ := given
        exact ⟨⟨rfl, rfl, rfl⟩, rfl, rfl⟩
      · intro given
        obtain ⟨⟨rfl, rfl, rfl⟩, rfl, rfl⟩ := given
        exact ⟨⟨rfl, rfl, rfl, rfl⟩, rfl⟩

/-- The step of a scanner that takes its next line so. -/
def Taken.step (taken : Taken) (scanner : Scanner) : Step :=
  { after :=
      { mode := taken.mode
        leftAlone := taken.leftAlone
        linesRead := scanner.linesRead + 1
        linesWritten := scanner.linesWritten + Segments.height taken.settled }
    settled := taken.settled }

theorem Takes.feed {scanner : Scanner} {taken : Taken}
    (takes : Takes table (scanner.linesRead + 1) scanner.leftAlone line scanner.mode taken)
    : scanner.feed table line = .ok (taken.step scanner) :=
  feed_eq_ok_iff.mpr ⟨takes, rfl, rfl⟩

/-- The scanner takes the lines one after another, settles the segments, and stands at the last
scanner behind them.
-/
inductive Reads (table : Rom.Table)
    : Scanner → List String → List Segment → Scanner → Prop
  | nil {scanner} : Reads table scanner [] [] scanner
  | cons {scanner line step lines settled last}
    (fed : scanner.feed table line = .ok step)
    (rest : Reads table step.after lines settled last)
    : Reads table scanner (line :: lines) (step.settled ++ settled) last

/-- One run behind another is a run, by induction on the first. -/
theorem Reads.append {scanner middle last : Scanner} {lines more : List String}
    {settled later : List Segment}
    (first : Reads table scanner lines settled middle)
    (second : Reads table middle more later last)
    : Reads table scanner (lines ++ more) (settled ++ later) last := by
  induction first with
  | nil => exact second
  | cons fed _ ih =>
      rw [List.append_assoc]
      exact .cons fed (ih second)

/-- A run can be cut between any two of its lines, by induction on the lines before the cut. -/
theorem Reads.split {scanner last : Scanner} {lines more : List String}
    {settled : List Segment}
    (run : Reads table scanner (lines ++ more) settled last)
    : ∃ middle before after,
        settled = before ++ after
        ∧ Reads table scanner lines before middle
        ∧ Reads table middle more after last := by
  induction lines generalizing scanner settled with
  | nil => exact ⟨scanner, [], settled, rfl, .nil, run⟩
  | cons line rest ih =>
      cases run with
      | cons fed run =>
          obtain ⟨middle, before, after, rfl, first, second⟩ := ih run
          exact ⟨middle, _, after, by rw [List.append_assoc], .cons fed first, second⟩

theorem Reads.linesRead {scanner last : Scanner} {lines : List String} {settled : List Segment}
    (run : Reads table scanner lines settled last)
    : last.linesRead = scanner.linesRead + lines.length := by
  induction run with
  | nil => rfl
  | cons fed _ ih =>
      obtain ⟨-, read, -⟩ := feed_eq_ok_iff.mp fed
      rw [ih, read, List.length_cons]
      omega

theorem course_cons {scanner : Scanner} {step : Step} (lines : List String)
    (fed : scanner.feed table line = .ok step)
    : scanner.course table [] (line :: lines)
      = { step.after.course table [] lines with
          steps := step :: (step.after.course table [] lines).steps } := by
  simp only [Scanner.course, fed]
  rw [Scanner.course_eq]
  rfl

/-- A run is the whole course of a scan, by induction on it. -/
theorem Reads.course {scanner last : Scanner} {lines : List String} {settled : List Segment}
    (run : Reads table scanner lines settled last)
    : (scanner.course table [] lines).fault = none
      ∧ (scanner.course table [] lines).steps.flatMap Step.settled = settled
      ∧ ((scanner.course table [] lines).steps.getLast?.map Step.after).getD scanner = last := by
  induction run with
  | nil => exact ⟨rfl, rfl, rfl⟩
  | @cons scanner line step lines settled last fed _ ih =>
      obtain ⟨fault, segments, stand⟩ := ih
      rw [course_cons lines fed]
      refine ⟨fault, by simp [segments], ?_⟩
      rw [← stand, List.getLast?_cons]
      cases (step.after.course table [] lines).steps.getLast? <;> rfl

/-- A course without a fault is a run, by induction on the lines. -/
theorem reads_of_course {scanner : Scanner} {lines : List String}
    (clean : (scanner.course table [] lines).fault = none)
    : ∃ settled last, Reads table scanner lines settled last := by
  induction lines generalizing scanner with
  | nil => exact ⟨[], scanner, .nil⟩
  | cons line rest ih =>
      cases fed : scanner.feed table line with
      | error fault => simp [Scanner.course, fed] at clean
      | ok step =>
          rw [course_cons rest fed] at clean
          obtain ⟨settled, last, run⟩ := ih clean
          exact ⟨_, last, .cons fed run⟩

/-- Every step of a course stands behind a run of the lines before it, by induction on the lines. -/
theorem reads_of_step {scanner : Scanner} {lines : List String} {index : Nat} {step : Step}
    (done : (scanner.course table [] lines).steps[index]? = some step)
    : ∃ line settled middle,
        lines[index]? = some line
        ∧ Reads table scanner (lines.take index) settled middle
        ∧ middle.feed table line = .ok step := by
  induction lines generalizing scanner index with
  | nil => simp [Scanner.course] at done
  | cons line rest ih =>
      cases fed : scanner.feed table line with
      | error fault => simp [Scanner.course, fed] at done
      | ok first =>
          rw [course_cons rest fed] at done
          cases index with
          | zero =>
              cases Option.some.inj done
              exact ⟨line, [], scanner, rfl, .nil, fed⟩
          | succ index =>
              obtain ⟨next, settled, middle, known, run, taken⟩ := ih done
              exact ⟨next, _, middle, known, .cons fed run, taken⟩

/-- A scan succeeds exactly if a run takes all lines and leaves no block open. -/
theorem segments_eq_ok_iff {lines : List String} {segments : List Segment}
    : Scan.segments table lines = .ok segments
      ↔ ∃ last, Reads table {} lines segments last ∧ last.mode.openBlock? = none := by
  constructor
  · intro success
    have clean : (Scanner.course table {} [] lines).fault = none := by
      cases fault : (Scanner.course table {} [] lines).fault with
      | none => rfl
      | some error =>
          simp [Scan.segments, history, Scanner.scan, Scanner.reset, History.outcome, fault]
            at success
    obtain ⟨settled, last, run⟩ := reads_of_course clean
    obtain ⟨-, same, stand⟩ := run.course
    simp only [Scan.segments, history, Scanner.scan, Scanner.reset, History.outcome, clean,
      History.last, stand, History.segments, same] at success
    split at success
    next => contradiction
    next => cases success
    next closed =>
      cases success
      exact ⟨last, run, closed⟩
  · intro given
    obtain ⟨last, run, closed⟩ := given
    obtain ⟨clean, same, stand⟩ := run.course
    simp [Scan.segments, history, Scanner.scan, Scanner.reset, History.outcome, clean,
      History.last, stand, History.segments, same, closed]

theorem segments_of_history {lines : List String} {segments : List Segment}
    (success : Scan.segments table lines = .ok segments)
    : (history table lines).segments = segments := by
  simp only [Scan.segments, History.outcome] at success
  split at success
  next => cases success
  next => cases success
  next => exact Except.ok.inj success

/-- What is computed of a success is computed of some value. -/
theorem exists_ok {ε α β : Type} {result : Except ε α} {view : α → β} {value : β}
    (computed : result.toOption.map view = some value)
    : ∃ own, result = .ok own ∧ view own = value := by
  cases result with
  | error fault => simp [Except.toOption] at computed
  | ok own => exact ⟨own, rfl, by simpa [Except.toOption] using computed⟩

/-- What is computed of a scan's segments is computed of the segments of a scan that succeeds, and
these have every property that success gives.
-/
theorem exists_segments {α : Type} {result : α} {lines : List String}
    {view : List Segment → α} {holds : List Segment → Prop}
    (sound : ∀ segments, Scan.segments table lines = .ok segments → holds segments)
    (computed : (Scan.segments table lines).toOption.map view = some result)
    : ∃ segments,
        Scan.segments table lines = .ok segments ∧ view segments = result ∧ holds segments := by
  obtain ⟨segments, success, viewed⟩ := exists_ok computed
  exact ⟨segments, success, viewed, sound segments success⟩

end RomStrings.Scan
