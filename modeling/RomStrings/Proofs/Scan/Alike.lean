import Mathlib.Data.List.Forall2
import RomStrings.Proofs.Scan.Blocks
import RomStrings.Proofs.Scan.Outcome

/-!
Two scans of the same lines. They may look blocks up in different tables, count lines from different
starts, and remember different anchors of sections that are over: they take the same lines the same
way and find fault with the same line. Only what becomes of a block is up to the table.
-/

namespace RomStrings

/-- Segments of the same lines in two scans: a block is looked up in the table of each. -/
inductive Segment.Alike (table other : Rom.Table) : Segment → Segment → Prop
  | copied {line} : Alike table other (.copied line) (.copied line)
  | anchored {number count line}
    : Alike table other (.anchored number line) (.anchored count line)
  | aborted {object : FunctionBlock} {count reason}
    : Alike table other (.aborted object reason) (.aborted { object with number := count } reason)
  | block (block : Block) {count}
    : Alike table other (.ofBlock table block) (.ofBlock other { block with number := count })

namespace Scan

open Assembly

variable {table other : Rom.Table}

-----------------------------------------------------------------------------------------
-- Lines taken alike
-----------------------------------------------------------------------------------------

/-- Two scans stand alike: the same block is open or none, and where that matters, both leave the
section alone or neither does.
-/
inductive Mode.Alike : Mode → Bool → Mode → Bool → Prop
  | outside {leftAlone alone} : Alike .outside leftAlone .outside alone
  | rodata {leftAlone} : Alike .rodata leftAlone .rodata leftAlone
  | literal (block : Literal) {leftAlone count}
    : Alike (.literal block) leftAlone (.literal { block with number := count }) leftAlone
  | entering {leftAlone alone} : Alike .entering leftAlone .entering alone
  | function (block : FunctionBlock) {leftAlone alone count}
    : Alike (.function block) leftAlone (.function { block with number := count }) alone

structure TakenAlike (table other : Rom.Table) (taken matching : Taken) : Prop where
  stand : Mode.Alike taken.mode taken.leftAlone matching.mode matching.leftAlone
  settled : List.Forall₂ (Segment.Alike table other) taken.settled matching.settled

theorem Segment.alike_ofLiteral {literal : Literal} {count : Nat}
    : Segment.Alike table other (.ofLiteral table literal)
        (.ofLiteral other { literal with number := count }) := by
  simp only [Segment.ofLiteral]
  cases literal.payloads.isEmpty with
  | true => exact .copied
  | false => exact .block literal.block

/-- The other scan takes the line by the same rules, by induction on them. -/
theorem Takes.alike {number : Nat} {leftAlone : Bool} {line : String} {mode : Mode}
    {taken : Taken} (takes : Takes table number leftAlone line mode taken) (other : Rom.Table)
    (count : Nat) {own : Mode} {alone : Bool} (stand : Mode.Alike mode leftAlone own alone)
    : ∃ matching,
        Takes other count alone line own matching ∧ TakenAlike table other taken matching := by
  induction takes generalizing own with
  | entering =>
      cases stand
      exact ⟨_, .entering, .function (.start number line), .nil⟩
  | functionSection opens _ ih =>
      cases stand
      obtain ⟨matching, next, alike⟩ := ih .entering
      exact ⟨matching, .functionSection opens next, alike⟩
  | rodataSection notFunction opens =>
      cases stand
      exact ⟨_, .rodataSection notFunction opens, .rodata, .cons .copied .nil⟩
  | outside notFunction notRodata =>
      cases stand
      exact ⟨_, .outside notFunction notRodata, .outside, .cons .copied .nil⟩
  | sectionSwitch switches _ ih =>
      cases stand
      obtain ⟨matching, next, alike⟩ := ih .outside
      exact ⟨matching, .sectionSwitch switches next, alike⟩
  | leftAlone stays isAlone =>
      cases stand
      exact ⟨_, .leftAlone stays isAlone, .rodata, .cons .copied .nil⟩
  | anchor stays read anchors =>
      cases stand
      exact ⟨_, .anchor stays read anchors, .rodata, .cons .anchored .nil⟩
  | @label label stays read plain labels =>
      cases stand
      exact ⟨_, .label stays read plain labels,
        .literal { label, number, labelLine := line }, .nil⟩
  | other stays read plain unlabelled =>
      cases stand
      exact ⟨_, .other stays read plain unlabelled, .rodata, .cons .copied .nil⟩
  | @payload block _ bytes stores decodes =>
      cases stand
      exact ⟨_, .payload stores decodes, .literal (block.add line bytes), .nil⟩
  | literalEnds ends _ ih =>
      cases stand
      obtain ⟨matching, next, alike⟩ := ih .rodata
      exact ⟨_, .literalEnds ends next, alike.stand, .cons Segment.alike_ofLiteral alike.settled⟩
  | @accepted block stage fits =>
      cases stand
      exact ⟨_, .accepted (FunctionStage.advance_number fits count),
        .function (block.add line stage), .nil⟩
  | @completed block anchor symbol bytes _ ends _ ih =>
      cases stand
      obtain ⟨matching, next, alike⟩ := ih .outside
      exact ⟨_, .completed (FunctionStage.advance_number ends count) next, alike.stand,
        .cons (.block (block.complete anchor symbol bytes)) alike.settled⟩
  | misfit ends _ ih =>
      cases stand
      obtain ⟨matching, next, alike⟩ := ih .outside
      exact ⟨_, .misfit (FunctionStage.advance_number ends count) next, alike.stand,
        .cons .aborted alike.settled⟩

-----------------------------------------------------------------------------------------
-- Faults found alike
-----------------------------------------------------------------------------------------

/-- The fault, in lines that stand behind as many others. -/
def Error.behind (before : Nat) : Error → Error
  | .escape number line column error => .escape (number + before) line column error
  | .truncated number line block => .truncated (number + before) line block

@[simp] theorem Error.behind_zero (fault : Error) : fault.behind 0 = fault := by
  cases fault <;> rfl

theorem PayloadFault.behind {number : Nat} {line : String} {fault : Error}
    (found : PayloadFault number line fault) (before : Nat)
    : PayloadFault (number + before) line (fault.behind before) := by
  obtain ⟨payload, stores, fails⟩ := found
  refine ⟨payload, stores, ?_⟩
  rw [payloadBytes] at fails ⊢
  cases decodes : payload.bytes with
  | ok bytes => simp [decodes] at fails
  | error error =>
      simp only [decodes, Except.error.injEq] at fails
      simp [← fails, Error.behind]

theorem Mode.Alike.decodes_eq {mode own : Mode} {leftAlone alone : Bool}
    (stand : Mode.Alike mode leftAlone own alone)
    : own.decodes = mode.decodes := by
  cases stand <;> rfl

theorem Mode.Alike.openBlock?_eq {mode own : Mode} {leftAlone alone : Bool}
    (stand : Mode.Alike mode leftAlone own alone)
    : own.openBlock? = mode.openBlock? := by
  cases stand <;> rfl

-----------------------------------------------------------------------------------------
-- Scans alike
-----------------------------------------------------------------------------------------

/-- Two scanners stand alike, the second of them behind as many lines more. -/
structure Scanner.Alike (before : Nat) (scanner own : Scanner) : Prop where
  stand : Mode.Alike scanner.mode scanner.leftAlone own.mode own.leftAlone
  linesRead : own.linesRead = scanner.linesRead + before

/-- The outcomes of two scans of the same lines, the second scan behind as many lines more. -/
inductive OutcomesAlike (table other : Rom.Table) (before : Nat)
    : Except Error (List Segment) → Except Error (List Segment) → Prop
  | ok {segments matching} (alike : List.Forall₂ (Segment.Alike table other) segments matching)
    : OutcomesAlike table other before (.ok segments) (.ok matching)
  | error {fault} : OutcomesAlike table other before (.error fault) (.error (fault.behind before))

/-- The outcomes stay alike behind lines that were taken alike. -/
theorem OutcomesAlike.map_append {before : Nat} {outcome matching : Except Error (List Segment)}
    {settled own : List Segment} (alike : OutcomesAlike table other before outcome matching)
    (earlier : List.Forall₂ (Segment.Alike table other) settled own)
    : OutcomesAlike table other before (outcome.map (settled ++ ·)) (matching.map (own ++ ·)) := by
  cases alike with
  | ok alike => exact .ok (List.rel_append earlier alike)
  | error => exact .error

/-- A line is taken alike or at fault in both scans. -/
theorem Scanner.Alike.feed {before : Nat} {scanner own : Scanner}
    (alike : scanner.Alike before own) (table other : Rom.Table) (line : String)
    : (∃ step matching,
          scanner.feed table line = .ok step
          ∧ own.feed other line = .ok matching
          ∧ step.after.Alike before matching.after
          ∧ List.Forall₂ (Segment.Alike table other) step.settled matching.settled)
      ∨ ∃ fault,
          scanner.feed table line = .error fault
          ∧ own.feed other line = .error (fault.behind before) := by
  cases fed : scanner.feed table line with
  | error fault =>
      obtain ⟨decodes, found⟩ := feed_eq_error_iff.mp fed
      refine .inr ⟨fault, rfl, feed_eq_error_iff.mpr ⟨?_, ?_⟩⟩
      · rwa [alike.stand.decodes_eq]
      · have moved := found.behind before
        rw [alike.linesRead]
        rwa [Nat.add_right_comm] at moved
  | ok step =>
      obtain ⟨takes, read, -⟩ := feed_eq_ok_iff.mp fed
      obtain ⟨matching, next, stand, settled⟩ := takes.alike other (own.linesRead + 1) alike.stand
      have count : own.linesRead + 1 = step.after.linesRead + before := by
        rw [read, alike.linesRead, Nat.add_right_comm]
      exact .inl ⟨step, matching.step own, rfl, next.feed, { stand, linesRead := count }, settled⟩

/-- Two scans that stand alike go on alike, by induction on the lines. The latest line only matters
where the input ends in a block that was open all along.
-/
theorem finish_alike {before : Nat} {scanner own : Scanner} (alike : scanner.Alike before own)
    {latest last : String} (same : latest = last ∨ scanner.mode.openBlock? = none)
    (lines : List String)
    : OutcomesAlike table other before (scanner.finish table latest lines)
        (own.finish other last lines) := by
  induction lines generalizing scanner own latest last with
  | nil =>
      simp only [Scanner.finish, alike.stand.openBlock?_eq, alike.linesRead]
      cases opened : scanner.mode.openBlock? with
      | none => exact .ok .nil
      | some block =>
          obtain rfl := same.resolve_right (by simp [opened])
          exact .error
  | cons line rest ih =>
      rcases alike.feed table other line
        with ⟨step, matching, fed, matched, stand, settled⟩ | ⟨fault, fed, matched⟩
      · simp only [Scanner.finish, fed, matched]
        exact (ih stand (.inl rfl)).map_append settled
      · simp only [Scanner.finish, fed, matched]
        exact .error

/-- Scans of the same lines in any two tables have outcomes alike. -/
theorem outcomes_alike (table other : Rom.Table) (lines : List String)
    : OutcomesAlike table other 0 (Scan.segments table lines) (Scan.segments other lines) := by
  rw [segments_eq_finish, segments_eq_finish]
  exact finish_alike { stand := .outside, linesRead := rfl } (.inl rfl) lines

end Scan

end RomStrings
