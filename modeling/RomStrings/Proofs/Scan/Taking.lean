import RomStrings.Scan.Scanner

/-!
What taking a line can do, as rules. They say everything a step of the scan may do, so what a scan
keeps is shown once for each rule and no proof takes a step apart again.
-/

namespace RomStrings.Scan

open Assembly

/-- What a line comes to in each mode, with one rule for each way of reading it. Where a mode does
not own the line, the rule goes on by the rules of the mode that the line is passed to.
-/
inductive Takes (table : Rom.Table) (number : Nat) (leftAlone : Bool) (line : String)
    : Mode → Taken → Prop
  | entering
    : Takes table number leftAlone line .entering
        { mode := .function (.start number line), leftAlone, settled := [] }
  | functionSection {taken} (opens : isFunctionSection line = true)
    (next : Takes table number leftAlone line .entering taken)
    : Takes table number leftAlone line .outside taken
  | rodataSection (notFunction : isFunctionSection line = false)
    (opens : isRodataSection line = true)
    : Takes table number leftAlone line .outside
        { mode := .rodata, leftAlone := false, settled := [.copied line] }
  | outside (notFunction : isFunctionSection line = false)
    (notRodata : isRodataSection line = false)
    : Takes table number leftAlone line .outside
        { mode := .outside, leftAlone, settled := [.copied line] }
  | sectionSwitch {taken} (switches : isSectionSwitch line = true)
    (next : Takes table number leftAlone line .outside taken)
    : Takes table number leftAlone line .rodata taken
  | leftAlone (stays : isSectionSwitch line = false) (alone : leftAlone = true)
    : Takes table number leftAlone line .rodata
        { mode := .rodata, leftAlone := true, settled := [.copied line] }
  | anchor (stays : isSectionSwitch line = false) (read : leftAlone = false)
    (anchors : isAnchor line = true)
    : Takes table number leftAlone line .rodata
        { mode := .rodata, leftAlone := true, settled := [.anchored number line] }
  | label {label} (stays : isSectionSwitch line = false) (read : leftAlone = false)
    (plain : isAnchor line = false) (labels : label? line = some label)
    : Takes table number leftAlone line .rodata
        { mode := .literal { label, number, labelLine := line }
          leftAlone := false
          settled := [] }
  | other (stays : isSectionSwitch line = false) (read : leftAlone = false)
    (plain : isAnchor line = false) (unlabelled : label? line = none)
    : Takes table number leftAlone line .rodata
        { mode := .rodata, leftAlone := false, settled := [.copied line] }
  | payload {block payload bytes} (stores : payload? line = some payload)
    (decodes : payload.bytes = .ok bytes)
    : Takes table number leftAlone line (.literal block)
        { mode := .literal (block.add line bytes), leftAlone, settled := [] }
  | literalEnds {block taken} (ends : payload? line = none)
    (next : Takes table number leftAlone line .rodata taken)
    : Takes table number leftAlone line (.literal block)
        { taken with settled := Segment.ofLiteral table block :: taken.settled }
  | accepted {block stage} (fits : block.stage.advance number line = .ok (.accept stage))
    : Takes table number leftAlone line (.function block)
        { mode := .function (block.add line stage), leftAlone, settled := [] }
  | completed {block anchor symbol bytes taken}
    (ends : block.stage.advance number line = .ok (.complete anchor symbol bytes))
    (next : Takes table number leftAlone line .outside taken)
    : Takes table number leftAlone line (.function block)
        { taken with
          settled := Segment.ofBlock table (block.complete anchor symbol bytes) :: taken.settled }
  | misfit {block reason taken}
    (ends : block.stage.advance number line = .ok (.misfit reason))
    (next : Takes table number leftAlone line .outside taken)
    : Takes table number leftAlone line (.function block)
        { taken with settled := .aborted block reason :: taken.settled }

variable {table : Rom.Table} {number : Nat} {leftAlone : Bool} {line : String}

/-- A line passed on is taken by the next mode, behind what was settled before. -/
theorem takeLine_passed {mode next : Mode} {lower : next.rank < mode.rank}
    {settled : List Segment} {taken : Taken}
    (read : readOnce table number leftAlone line mode = .ok (.passed next lower settled))
    : takeLine table number leftAlone line mode = .ok taken
      ↔ ∃ later, takeLine table number leftAlone line next = .ok later
          ∧ taken = { later with settled := settled ++ later.settled } := by
  rw [takeLine, read]
  cases found : takeLine table number leftAlone line next with
  | error fault => simp [found, Except.map]
  | ok later => simp [found, Except.map, eq_comm]

section PassedOn

variable {taken : Taken}

theorem takeLine_functionSection (opens : isFunctionSection line = true)
    : takeLine table number leftAlone line .outside = .ok taken
      ↔ takeLine table number leftAlone line .entering = .ok taken := by
  have read : readOnce table number leftAlone line .outside
      = .ok (.passed .entering (Nat.lt_add_one 0) []) := by
    simp [readOnce, readOutside, opens]
  simp [takeLine_passed read]

theorem takeLine_sectionSwitch (switches : isSectionSwitch line = true)
    : takeLine table number leftAlone line .rodata = .ok taken
      ↔ takeLine table number leftAlone line .outside = .ok taken := by
  have read : readOnce table number leftAlone line .rodata
      = .ok (.passed .outside (Nat.lt_add_one 1) []) := by
    simp [readOnce, readRodata, switches]
  simp [takeLine_passed read]

theorem takeLine_literalEnds {block : Literal} (ends : payload? line = none)
    : takeLine table number leftAlone line (.literal block) = .ok taken
      ↔ ∃ later, takeLine table number leftAlone line .rodata = .ok later
          ∧ taken
            = { later with settled := Segment.ofLiteral table block :: later.settled } := by
  have read : readOnce table number leftAlone line (.literal block)
      = .ok (.passed .rodata (Nat.lt_add_one 2) [Segment.ofLiteral table block]) := by
    simp [readOnce, readLiteral, ends]
  exact takeLine_passed read

theorem takeLine_completed {block : FunctionBlock} {anchor : Option String} {symbol : String}
    {bytes : Bytes}
    (ends : block.stage.advance number line = .ok (.complete anchor symbol bytes))
    : takeLine table number leftAlone line (.function block) = .ok taken
      ↔ ∃ later, takeLine table number leftAlone line .outside = .ok later
          ∧ taken
            = { later with
                settled :=
                  Segment.ofBlock table (block.complete anchor symbol bytes)
                    :: later.settled } := by
  have read : readOnce table number leftAlone line (.function block)
      = .ok (.passed .outside (Nat.lt_add_one 1)
          [Segment.ofBlock table (block.complete anchor symbol bytes)]) := by
    simp [readOnce, readFunction, ends, Except.map]
  exact takeLine_passed read

theorem takeLine_misfit {block : FunctionBlock} {reason : Misfit}
    (ends : block.stage.advance number line = .ok (.misfit reason))
    : takeLine table number leftAlone line (.function block) = .ok taken
      ↔ ∃ later, takeLine table number leftAlone line .outside = .ok later
          ∧ taken = { later with settled := .aborted block reason :: later.settled } := by
  have read : readOnce table number leftAlone line (.function block)
      = .ok (.passed .outside (Nat.lt_add_one 1) [.aborted block reason]) := by
    simp [readOnce, readFunction, ends, Except.map]
  exact takeLine_passed read

end PassedOn

/-- What the rules allow is what the scan does, by induction on the rules. -/
theorem Takes.takeLine {mode : Mode} {taken : Taken}
    (takes : Takes table number leftAlone line mode taken)
    : Scan.takeLine table number leftAlone line mode = .ok taken := by
  induction takes with
  | entering => rw [Scan.takeLine]; rfl
  | functionSection opens _ ih => exact (takeLine_functionSection opens).mpr ih
  | rodataSection notFunction opens =>
      rw [Scan.takeLine]
      simp [readOnce, readOutside, notFunction, opens]
  | outside notFunction notRodata =>
      rw [Scan.takeLine]
      simp [readOnce, readOutside, notFunction, notRodata]
  | sectionSwitch switches _ ih => exact (takeLine_sectionSwitch switches).mpr ih
  | leftAlone stays alone =>
      rw [Scan.takeLine]
      simp [readOnce, readRodata, stays, alone]
  | anchor stays read anchors =>
      rw [Scan.takeLine]
      simp [readOnce, readRodata, stays, read, anchors]
  | label stays read plain labels =>
      rw [Scan.takeLine]
      simp [readOnce, readRodata, stays, read, plain, labels]
  | other stays read plain unlabelled =>
      rw [Scan.takeLine]
      simp [readOnce, readRodata, stays, read, plain, unlabelled]
  | payload stores decodes =>
      rw [Scan.takeLine]
      simp [readOnce, readLiteral, stores, payloadBytes, decodes, Except.map]
  | literalEnds ends _ ih => exact (takeLine_literalEnds ends).mpr ⟨_, ih, rfl⟩
  | accepted fits =>
      rw [Scan.takeLine]
      simp [readOnce, readFunction, fits, Except.map]
  | completed ends _ ih => exact (takeLine_completed ends).mpr ⟨_, ih, rfl⟩
  | misfit ends _ ih => exact (takeLine_misfit ends).mpr ⟨_, ih, rfl⟩

theorem takes_of_entering {taken : Taken}
    (done : takeLine table number leftAlone line .entering = .ok taken)
    : Takes table number leftAlone line .entering taken := by
  rw [takeLine] at done
  simp only [readOnce] at done
  cases done
  exact .entering

/-- Outside read-only data a line is taken by one of three rules, by cases on its section forms. -/
theorem takes_of_outside {taken : Taken}
    (done : takeLine table number leftAlone line .outside = .ok taken)
    : Takes table number leftAlone line .outside taken := by
  cases opens : isFunctionSection line with
  | true =>
      have next := (takeLine_functionSection opens).mp done
      exact .functionSection opens (takes_of_entering next)
  | false =>
      rw [takeLine] at done
      cases rodata : isRodataSection line with
      | true =>
          simp only [readOnce, readOutside, opens, rodata] at done
          cases done
          exact .rodataSection opens rodata
      | false =>
          simp only [readOnce, readOutside, opens, rodata] at done
          cases done
          exact .outside opens rodata

/-- In read-only data a line is taken by the first rule that applies, by cases on its forms in the
order in which they are tried.
-/
theorem takes_of_rodata {taken : Taken}
    (done : takeLine table number leftAlone line .rodata = .ok taken)
    : Takes table number leftAlone line .rodata taken := by
  cases switches : isSectionSwitch line with
  | true =>
      have next := (takeLine_sectionSwitch switches).mp done
      exact .sectionSwitch switches (takes_of_outside next)
  | false =>
      rw [takeLine] at done
      cases alone : leftAlone with
      | true =>
          simp only [readOnce, readRodata, switches, alone] at done
          cases done
          exact .leftAlone switches rfl
      | false =>
          cases anchors : isAnchor line with
          | true =>
              simp only [readOnce, readRodata, switches, alone, anchors] at done
              cases done
              exact .anchor switches rfl anchors
          | false =>
              cases labels : label? line with
              | some label =>
                  simp only [readOnce, readRodata, switches, alone, anchors, labels] at done
                  cases done
                  exact .label switches rfl anchors labels
              | none =>
                  simp only [readOnce, readRodata, switches, alone, anchors, labels] at done
                  cases done
                  exact .other switches rfl anchors labels

/-- A literal takes a payload that decodes and passes every other line on. -/
theorem takes_of_literal {block : Literal} {taken : Taken}
    (done : takeLine table number leftAlone line (.literal block) = .ok taken)
    : Takes table number leftAlone line (.literal block) taken := by
  cases stores : payload? line with
  | none =>
      obtain ⟨later, next, rfl⟩ := (takeLine_literalEnds stores).mp done
      exact .literalEnds stores (takes_of_rodata next)
  | some payload =>
      rw [takeLine] at done
      cases decodes : payload.bytes with
      | error fault =>
          simp [readOnce, readLiteral, stores, payloadBytes, decodes, Except.map] at done
      | ok bytes =>
          simp only [readOnce, readLiteral, stores, payloadBytes, decodes, Except.map] at done
          cases done
          exact .payload stores decodes

/-- An object of a function's name takes a line that fits its grammar and passes others on. -/
theorem takes_of_function {block : FunctionBlock} {taken : Taken}
    (done : takeLine table number leftAlone line (.function block) = .ok taken)
    : Takes table number leftAlone line (.function block) taken := by
  cases advance : block.stage.advance number line with
  | error fault =>
      rw [takeLine] at done
      simp [readOnce, readFunction, advance, Except.map] at done
  | ok means =>
      cases means with
      | accept stage =>
          rw [takeLine] at done
          simp only [readOnce, readFunction, advance, Except.map] at done
          cases done
          exact .accepted advance
      | complete anchor symbol bytes =>
          obtain ⟨later, next, rfl⟩ := (takeLine_completed advance).mp done
          exact .completed advance (takes_of_outside next)
      | misfit reason =>
          obtain ⟨later, next, rfl⟩ := (takeLine_misfit advance).mp done
          exact .misfit advance (takes_of_outside next)

/-- The scan takes a line exactly as the rules allow. -/
theorem takeLine_eq_ok_iff {mode : Mode} {taken : Taken}
    : takeLine table number leftAlone line mode = .ok taken
      ↔ Takes table number leftAlone line mode taken := by
  refine ⟨fun done => ?_, Takes.takeLine⟩
  cases mode with
  | outside => exact takes_of_outside done
  | rodata => exact takes_of_rodata done
  | literal block => exact takes_of_literal done
  | entering => exact takes_of_entering done
  | function block => exact takes_of_function done

end RomStrings.Scan
