import Mathlib.Logic.Function.Iterate
import RomStrings.Proofs.Scan.Faults
import RomStrings.Proofs.Scan.OpenBlocks

/-!
How often a line is read. A line is read in one mode after another until the scanner is done with
it, which is after four readings at the latest. Then the line is copied, or it is the latest line of
the one block that is open, or it holds a payload that does not decode.
-/

namespace RomStrings.Scan

open Assembly

-----------------------------------------------------------------------------------------
-- One reading after another
-----------------------------------------------------------------------------------------

/-- How far a scanner is with a line: it is to be read in a mode, with segments settled on the way
there, or the scanner is done with it.
-/
inductive Progress where
  | toRead (mode : Mode) (settled : List Segment)
  | done (result : Except Error Taken)

/-- What one reading comes to, behind what was settled before. -/
def Progress.behind (settled : List Segment) {mode : Mode}
    : Except Error (Reading mode) → Progress
  | .error fault => .done (.error fault)
  | .ok (.taken next leftAlone more) =>
      .done (.ok { mode := next, leftAlone, settled := settled ++ more })
  | .ok (.passed next _ more) => .toRead next (settled ++ more)

/-- Read the line once more, unless the scanner is done with it. -/
def Progress.next (table : Rom.Table) (number : Nat) (leftAlone : Bool) (line : String)
    : Progress → Progress
  | .toRead mode settled => .behind settled (readOnce table number leftAlone line mode)
  | .done result => .done result

/-- From the given progress on, a scanner is done with the line after so many readings, and no
sooner.
-/
structure DoneAfter (table : Rom.Table) (number : Nat) (leftAlone : Bool) (line : String)
    (start : Progress) (readings : Nat) (result : Except Error Taken)
    : Prop where
  done : (Progress.next table number leftAlone line)^[readings] start = .done result
  sooner
    : ∀ fewer < readings,
        ∃ mode settled,
          (Progress.next table number leftAlone line)^[fewer] start = .toRead mode settled

section

variable {table : Rom.Table} {number : Nat} {leftAlone : Bool} {line : String} {mode : Mode}
  {settled : List Segment}

/-- One reading more is to be counted before all others. -/
theorem DoneAfter.succ {readings : Nat} {result : Except Error Taken}
    (later
      : DoneAfter table number leftAlone line
          (.behind settled (readOnce table number leftAlone line mode)) readings result)
    : DoneAfter table number leftAlone line (.toRead mode settled) (readings + 1) result where
  done := later.done
  sooner := by
    intro fewer less
    cases fewer with
    | zero => exact ⟨mode, settled, rfl⟩
    | succ fewer => exact later.sooner fewer (Nat.lt_of_succ_lt_succ less)

theorem DoneAfter.zero (result : Except Error Taken)
    : DoneAfter table number leftAlone line (.done result) 0 result where
  done := rfl
  sooner := fun _ less => absurd less (Nat.not_lt_zero _)

/-- A line that is to be read takes a reading. -/
theorem DoneAfter.pos {readings : Nat} {result : Except Error Taken}
    (done : DoneAfter table number leftAlone line (.toRead mode settled) readings result)
    : 0 < readings := by
  cases readings with
  | zero => cases done.done
  | succ readings => exact Nat.succ_pos readings

/-- A section line of an object is passed on by every mode but the one that takes it: it is no
payload, and the grammar of an object stops at it.
-/
theorem passed_of_functionSection (table : Rom.Table) (number : Nat) (leftAlone : Bool)
    (opens : isFunctionSection line = true) (resting : mode ≠ .entering)
    : ∃ next lower more,
        readOnce table number leftAlone line mode = .ok (.passed next lower more) := by
  obtain ⟨operands, found⟩ := operandsOf?_of_isFunctionSection opens
  have formless := Formless.of_section found
  cases mode with
  | entering => exact absurd rfl resting
  | outside => exact ⟨.entering, Nat.lt_add_one 0, [], by simp [readOnce, readOutside, opens]⟩
  | rodata =>
      have switches := isSectionSwitch_of_isFunctionSection opens
      exact ⟨.outside, Nat.lt_add_one 1, [], by simp [readOnce, readRodata, switches]⟩
  | literal block =>
      exact ⟨.rodata, Nat.lt_add_one 2, _, by simp [readOnce, readLiteral, formless.payload]; rfl⟩
  | function block =>
      have ends := FunctionStage.advance_of_formless formless number block.stage
      simp only [readOnce, readFunction, ends, Except.map]
      cases block.stage with
      | opened | anchored _ | typed _ _ | sized _ _ | labelled _ _ | filled _ _ _ =>
          exact ⟨.outside, Nat.lt_add_one 1, _, rfl⟩

/-- A line is passed on to the mode one rank below, and only the section line of an object is passed
on to the mode that starts one.
-/
theorem rank_of_passed {next : Mode} {lower : next.rank < mode.rank} {more : List Segment}
    (read : readOnce table number leftAlone line mode = .ok (.passed next lower more))
    : mode.rank = next.rank + 1 ∧ (next = .entering → isFunctionSection line = true) := by
  cases passesOn_of_readOnce read with
  | functionSection opens => exact ⟨rfl, fun _ => opens⟩
  | sectionSwitch | literalEnds | objectEnds => exact ⟨rfl, nofun⟩

theorem Mode.rank_pos (resting : mode ≠ .entering) : 0 < mode.rank := by
  cases mode with
  | entering => exact absurd rfl resting
  | outside | rodata | literal _ | function _ => exact Nat.succ_pos _

/-- A mode that does not pass the line on reads it once, and less often than the section line of an
object.
-/
theorem one_eq_iff_of_not_passed (table : Rom.Table) (number : Nat) (leftAlone : Bool)
    (resting : mode ≠ .entering)
    (stays
      : ∀ {next : Mode} {lower : next.rank < mode.rank} {more : List Segment},
          readOnce table number leftAlone line mode ≠ .ok (.passed next lower more))
    : 1 = mode.rank + 1 ↔ isFunctionSection line = true := by
  have rank := Mode.rank_pos resting
  refine iff_of_false (by omega) fun opens => ?_
  obtain ⟨next, lower, more, passed⟩ :=
    passed_of_functionSection table number leftAlone opens resting
  exact stays passed

/-- A line is read at most once in each mode of ever lower rank, and in all of them exactly if it is
the section line of an object. By induction on the readings up to the last one.
-/
theorem doneAfter_takeLine (table : Rom.Table) (number : Nat) (leftAlone : Bool) (line : String)
    (mode : Mode) (settled : List Segment)
    : ∃ readings,
        DoneAfter table number leftAlone line (.toRead mode settled) readings
          ((takeLine table number leftAlone line mode).map fun taken =>
            { taken with settled := settled ++ taken.settled })
        ∧ readings ≤ mode.rank + 1
        ∧ (mode ≠ .entering → (readings = mode.rank + 1 ↔ isFunctionSection line = true)) := by
  fun_induction takeLine table number leftAlone line mode generalizing settled with
  | case1 mode fault read =>
      refine ⟨1, .succ ?_, by omega, fun resting =>
        one_eq_iff_of_not_passed table number leftAlone resting (by simp [read])⟩
      rw [read]
      exact .zero _
  | case2 mode next alone more read =>
      refine ⟨1, .succ ?_, by omega, fun resting =>
        one_eq_iff_of_not_passed table number leftAlone resting (by simp [read])⟩
      rw [read]
      exact .zero _
  | case3 mode next lower more read ih =>
      obtain ⟨readings, done, bound, tight⟩ := ih (settled ++ more)
      obtain ⟨rank, enters⟩ := rank_of_passed read
      refine ⟨readings + 1, .succ ?_, by omega, fun _ => ?_⟩
      · rw [read]
        cases later : takeLine table number leftAlone line next <;>
          simpa [later, Except.map, Progress.behind] using done
      · rw [rank, Nat.add_right_cancel_iff]
        by_cases starts : next = .entering
        · subst starts
          exact iff_of_true (Nat.le_antisymm bound done.pos) (enters rfl)
        · exact tight starts

end

-----------------------------------------------------------------------------------------
-- Lines taken once
-----------------------------------------------------------------------------------------

/-- A line is taken once. It is copied, behind all that was open before it and with nothing open
behind it; or the block that is open goes on with it; or it is the first line of a block, behind all
that was open before it.
-/
inductive TakenOnce (line : String) (before : Mode) (taken : Taken) : Prop
  | copied (earlier : List Segment) {segment} (settled : taken.settled = earlier ++ [segment])
    (whole : Segments.source earlier = before.pending)
    (copies : segment = .copied line ∨ ∃ number, segment = .anchored number line)
    (closed : taken.mode.openBlock? = none)
  | joins (more : before.GoesOn line taken.mode) (nothing : taken.settled = [])
  | opens (whole : Segments.source taken.settled = before.pending)
    (first : taken.mode.pending = [line]) (opened : taken.mode.openBlock?.isSome = true)

/-- A mode with nothing open takes a line once for the mode that passes it on, which has settled all
that was open.
-/
theorem TakenOnce.passed (before : Mode) (settled : List Segment) {next : Mode} {line : String}
    {taken : Taken} (once : TakenOnce line next taken) (closed : next.openBlock? = none)
    (whole : Segments.source settled = before.pending)
    : TakenOnce line before { taken with settled := settled ++ taken.settled } := by
  have nothing := Mode.pending_of_closed closed
  cases once with
  | copied earlier own source copies ends =>
      refine .copied (settled ++ earlier) ?_ ?_ copies ends
      · rw [own, List.append_assoc]
      · rw [source_append, source, nothing, List.append_nil, whole]
  | joins more _ =>
      obtain ⟨mode, alone, others⟩ := taken
      cases more <;> cases closed
  | opens source first opened =>
      refine .opens ?_ first opened
      rw [source_append, source, nothing, List.append_nil, whole]

/-- Every line taken is taken once, by induction on the rules. -/
theorem Takes.takenOnce {table : Rom.Table} {number : Nat} {leftAlone : Bool} {line : String}
    {mode : Mode} {taken : Taken} (takes : Takes table number leftAlone line mode taken)
    : TakenOnce line mode taken := by
  induction takes with
  | entering | label _ _ _ _ => exact .opens rfl rfl rfl
  | rodataSection _ _ | outside _ _ | leftAlone _ _ | other _ _ _ _ =>
      exact .copied [] rfl rfl (.inl rfl) rfl
  | anchor _ _ _ => exact .copied [] rfl rfl (.inr ⟨number, rfl⟩) rfl
  | functionSection _ _ ih => exact ih.passed .outside [] rfl rfl
  | sectionSwitch _ _ ih => exact ih.passed .rodata [] rfl rfl
  | payload _ _ => exact .joins (.literal _) rfl
  | accepted _ => exact .joins (.object _) rfl
  | @literalEnds block _ _ _ ih =>
      exact ih.passed (.literal block) [_] rfl (by simp [Mode.pending])
  | @completed block _ _ _ _ _ _ ih =>
      exact ih.passed (.function block) [_] rfl (by simp [Mode.pending, FunctionBlock.complete])
  | @misfit block _ _ _ _ ih =>
      exact ih.passed (.function block) [_] rfl (by simp [Mode.pending, Segment.source])

/-- What becomes of a line in the end: it is taken once, or its payload does not decode. -/
inductive ReadOut (scanner : Scanner) (line : String) : Except Error Taken → Prop
  | taken {taken} (once : TakenOnce line scanner.mode taken) : ReadOut scanner line (.ok taken)
  | undecodable {payload error} (stores : payload? line = some payload)
    (fails : Escape.decode payload.escaped = .error error)
    : ReadOut scanner line
        (.error (.escape (scanner.linesRead + 1) line payload.column error))

theorem readOut_takeLine (table : Rom.Table) (scanner : Scanner) (line : String)
    : ReadOut scanner line
        (takeLine table (scanner.linesRead + 1) scanner.leftAlone line scanner.mode) := by
  cases done : takeLine table (scanner.linesRead + 1) scanner.leftAlone line scanner.mode with
  | ok taken => exact .taken (takeLine_eq_ok_iff.mp done).takenOnce
  | error fault =>
      obtain ⟨-, faulty⟩ := takeLine_eq_error_iff.mp done
      obtain ⟨payload, error, stores, fails, rfl⟩ := payloadFault_iff.mp faulty
      exact .undecodable stores fails

/-- Wherever a scanner stands, it is done with the next line after four readings at the latest, and
only the section line of an object behind an open literal takes as many. What it makes of the line
is what the readings come to: the line is taken once, or its payload does not decode.
-/
theorem scanner_reads_line_four_times_at_most (table : Rom.Table) (scanner : Scanner)
    (line : String)
    : ∃ readings result,
        DoneAfter table (scanner.linesRead + 1) scanner.leftAlone line
          (.toRead scanner.mode []) readings result
        ∧ readings ≤ 4
        ∧ (readings = 4
          ↔ (∃ literal, scanner.mode = .literal literal) ∧ isFunctionSection line = true)
        ∧ scanner.feed table line = result.map (Taken.step · scanner)
        ∧ ReadOut scanner line result := by
  obtain ⟨readings, done, bound, tight⟩ :=
    doneAfter_takeLine table (scanner.linesRead + 1) scanner.leftAlone line scanner.mode []
  have same
      : (takeLine table (scanner.linesRead + 1) scanner.leftAlone line scanner.mode).map
          (fun taken => { taken with settled := [] ++ taken.settled })
        = takeLine table (scanner.linesRead + 1) scanner.leftAlone line scanner.mode := by
    cases takeLine table (scanner.linesRead + 1) scanner.leftAlone line scanner.mode <;> rfl
  rw [same] at done
  refine ⟨readings, _, done, ?_, ?_, rfl, readOut_takeLine table scanner line⟩
  · cases mode : scanner.mode <;> simp [mode, Mode.rank] at bound <;> omega
  · cases mode : scanner.mode with
    | literal block => simpa [mode, Mode.rank] using tight
    | outside | rodata | entering | function _ =>
        simp [mode, Mode.rank] at bound
        simp only [reduceCtorEq, exists_false, false_and, iff_false]
        omega

end RomStrings.Scan
