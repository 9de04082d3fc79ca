import RomStrings.Scan.Registers

/-!
The scan that calls one handler after another. What a handler can do is said once, as rules, so what
the calls keep is shown once for each rule. A line that is read again has closed a block or moved on
to another part, so the calls for one line come to an end.
-/

namespace RomStrings.Scan

open Assembly

-----------------------------------------------------------------------------------------
-- What a handler can do
-----------------------------------------------------------------------------------------

/-- The object that is open takes the line as an element of the grammar, or as an alignment. -/
inductive OpenObject.Accepts (line : String) (object : OpenObject) : OpenObject → Prop
  | align (early : object.stage ≠ .label ∧ object.stage ≠ .payload)
    (aligns : isAlign line = true)
    : Accepts line object (object.add line object.stage)
  | anchor {anchor} (stage : object.stage = .opening)
    (defines : anchorDefinition? line = some anchor)
    : Accepts line object ({ object with anchor := some anchor }.add line .anchor)
  | type {symbol} (stage : object.stage = .opening ∨ object.stage = .anchor)
    (types : typeOf? line = some (symbol, "object"))
    : Accepts line object ({ object with symbol := some symbol }.add line .type)
  | size {size} (stage : object.stage = .type) (sizes : sizeOf? line = some size)
    (named : object.symbol = some size.1)
    : Accepts line object (object.add line .size)
  | label {symbol} (stage : object.stage = .type ∨ object.stage = .size)
    (labels : label? line = some symbol) (named : object.symbol = some symbol)
    : Accepts line object (object.add line .label)
  | payload {payload bytes} (stage : object.stage = .label)
    (stores : payload? line = some payload) (decodes : payload.bytes = .ok bytes)
    : Accepts line object ({ object with bytes }.add line .payload)

/-- What a handler leaves behind, with one rule for each way through it. -/
inductive Handles (table : Rom.Table) (options : Options) (line : String) (registers : Registers)
    : Handled → Prop
  | functionSection (part : registers.part = .outside) (opens : isFunctionSection line = true)
    : Handles table options line registers
        { registers := { registers with part := .object }, again := true }
  | rodataSection (part : registers.part = .outside)
    (notFunction : isFunctionSection line = false) (opens : isRodataSection line = true)
    : Handles table options line registers
        { registers := { registers.write [line] with part := .rodata, leftAlone := false }
          again := false }
  | outside (part : registers.part = .outside) (notFunction : isFunctionSection line = false)
    (notRodata : isRodataSection line = false)
    : Handles table options line registers
        { registers := { registers.write [line] with part := .outside }, again := false }
  | payload {literal payload bytes} (part : registers.part = .rodata)
    (opened : registers.literal = some literal) (stores : payload? line = some payload)
    (decodes : payload.bytes = .ok bytes)
    : Handles table options line registers
        { registers :=
            { registers with part := .rodata, literal := some (literal.add line bytes) }
          again := false }
  | literalEnds {literal} (part : registers.part = .rodata)
    (opened : registers.literal = some literal) (ends : payload? line = none)
    : Handles table options line registers
        { registers := { registers.finishLiteral table options literal with part := .rodata }
          again := true }
  | sectionSwitch (part : registers.part = .rodata) (closed : registers.literal = none)
    (switches : isSectionSwitch line = true)
    : Handles table options line registers
        { registers := { registers with part := .outside }, again := true }
  | leftAlone (part : registers.part = .rodata) (closed : registers.literal = none)
    (stays : isSectionSwitch line = false) (alone : registers.leftAlone = true)
    : Handles table options line registers
        { registers := { registers.write [line] with part := .rodata }, again := false }
  | anchor (part : registers.part = .rodata) (closed : registers.literal = none)
    (stays : isSectionSwitch line = false) (read : registers.leftAlone = false)
    (anchors : isAnchor line = true)
    : Handles table options line registers
        { registers := { (registers.keepSection options).write [line] with part := .rodata }
          again := false }
  | label {label} (part : registers.part = .rodata) (closed : registers.literal = none)
    (stays : isSectionSwitch line = false) (read : registers.leftAlone = false)
    (plain : isAnchor line = false) (labels : label? line = some label)
    : Handles table options line registers
        { registers :=
            { registers with
              part := .rodata
              literal := some { label, number := registers.number, lines := [line] } }
          again := false }
  | other (part : registers.part = .rodata) (closed : registers.literal = none)
    (stays : isSectionSwitch line = false) (read : registers.leftAlone = false)
    (plain : isAnchor line = false) (unlabelled : label? line = none)
    : Handles table options line registers
        { registers := { registers.write [line] with part := .rodata }, again := false }
  | opening (part : registers.part = .object) (closed : registers.object = none)
    : Handles table options line registers
        { registers :=
            { registers with
              part := .object
              object := some { number := registers.number, lines := [line] } }
          again := false }
  | accepted {object more} (part : registers.part = .object)
    (opened : registers.object = some object) (accepts : object.Accepts line more)
    : Handles table options line registers
        { registers := { registers with part := .object, object := some more }, again := false }
  | completed {object after} (part : registers.part = .object)
    (opened : registers.object = some object) (stage : object.stage = .payload)
    (ends : payload? line = none)
    (finished : registers.finishObject table options object = .ok after)
    : Handles table options line registers
        { registers := { after with part := .outside }, again := true }
  | misfit {object} (part : registers.part = .object) (opened : registers.object = some object)
    (reason : Misfit)
    : Handles table options line registers (registers.abort options object reason)

namespace Registers

variable {table : Rom.Table} {options : Options} {registers : Registers}

-----------------------------------------------------------------------------------------
-- Blocks that are written
-----------------------------------------------------------------------------------------

/-- What is written of a block: its lines as they are, or what stands in for them. -/
def WrittenOf (options : Options) (lines : List String) (label : String) (anchor : Option String)
    (written : List String)
    : Prop :=
  written = lines ∨ ∃ address, written = replacement options.comment lines label anchor address

theorem emit_eq (options : Options) (registers : Registers) (block : Block)
    (found : Option Rom.Match)
    : ∃ written resolution stats notes,
        registers.emit options block found
          = { registers with output := registers.output ++ written, resolution, stats, notes }
        ∧ WrittenOf options block.lines block.label block.anchor written := by
  cases found with
  | none => exact ⟨_, _, _, _, rfl, .inl rfl⟩
  | some found => exact ⟨_, _, _, _, rfl, .inr ⟨found.address, rfl⟩⟩

/-- A literal that ends is closed and written. -/
theorem finishLiteral_eq (table : Rom.Table) (options : Options) (registers : Registers)
    (literal : OpenLiteral)
    : ∃ written resolution stats notes,
        registers.finishLiteral table options literal
          = { registers with
              literal := none
              output := registers.output ++ written
              resolution, stats, notes }
        ∧ WrittenOf options literal.lines literal.label none written := by
  simp only [finishLiteral]
  split
  next => exact ⟨_, _, _, _, rfl, .inl rfl⟩
  next => exact emit_eq options _ _ _

/-- An object that is complete is closed and written under its symbol. -/
theorem finishObject_eq {object : OpenObject} {after : Registers}
    (finished : registers.finishObject table options object = .ok after)
    : ∃ symbol written resolution stats notes,
        object.symbol = some symbol
        ∧ after
          = { registers with
              object := none
              output := registers.output ++ written
              resolution, stats, notes }
        ∧ WrittenOf options object.lines symbol (given object.anchor) written := by
  simp only [finishObject] at finished
  split at finished
  next => cases finished
  next symbol named =>
    cases finished
    obtain ⟨written, resolution, stats, notes, same, whole⟩ :=
      emit_eq options { registers with object := none }
        { kind := .function (given object.anchor)
          number := object.number
          lines := object.lines
          label := symbol
          bytes := object.bytes }
        (table.matchFunction object.bytes)
    exact ⟨symbol, written, resolution, stats, notes, named, same, whole⟩

-----------------------------------------------------------------------------------------
-- The rules are those of the handlers
-----------------------------------------------------------------------------------------

section

variable {line : String} {handled : Handled} {object : OpenObject}

theorem bytes_of_decode {payload : Payload} {bytes : Bytes}
    (decoded : registers.decode line payload = .ok bytes)
    : payload.bytes = .ok bytes := by
  simp only [decode, payloadBytes] at decoded
  cases data : payload.bytes with
  | error error =>
      rw [data] at decoded
      cases decoded
  | ok own =>
      rw [data] at decoded
      cases decoded
      rfl

theorem handles_outside (part : registers.part = .outside)
    : Handles table options line registers (handleOutside line registers) := by
  simp only [handleOutside]
  split
  next opens => exact .functionSection part opens
  next notFunction =>
    have notFunction := Bool.eq_false_iff.mpr notFunction
    split
    next opens => exact .rodataSection part notFunction opens
    next notRodata => exact .outside part notFunction (Bool.eq_false_iff.mpr notRodata)

theorem handles_rodata (part : registers.part = .rodata)
    (handles : handleRodata table options line registers = .ok handled)
    : Handles table options line registers handled := by
  simp only [handleRodata] at handles
  split at handles
  next literal opened =>
    split at handles
    next payload stores =>
      cases decoded : registers.decode line payload with
      | error halt => simp [decoded, Except.map] at handles
      | ok bytes =>
          simp only [decoded, Except.map, Except.ok.injEq] at handles
          exact handles ▸ .payload part opened stores (bytes_of_decode decoded)
    next ends =>
      cases handles
      exact .literalEnds part opened ends
  next closed =>
    split at handles
    next switches =>
      cases handles
      exact .sectionSwitch part closed switches
    next stays =>
      have stays := Bool.eq_false_iff.mpr stays
      split at handles
      next alone =>
        cases handles
        exact .leftAlone part closed stays alone
      next read =>
        have read := Bool.eq_false_iff.mpr read
        split at handles
        next anchors =>
          cases handles
          exact .anchor part closed stays read anchors
        next plain =>
          have plain := Bool.eq_false_iff.mpr plain
          split at handles
          next label labels =>
            cases handles
            exact .label part closed stays read plain labels
          next unlabelled =>
            cases handles
            exact .other part closed stays read plain unlabelled

/-- The rest of the grammar takes the line or gives the object up. -/
theorem handles_expectType (part : registers.part = .object)
    (opened : registers.object = some object)
    (stage : object.stage = .opening ∨ object.stage = .anchor)
    : Handles table options line registers (expectType options line registers object) := by
  simp only [expectType]
  split
  next => exact .misfit part opened _
  next symbol kind types =>
    split
    next named => exact .accepted part opened (.type stage (named ▸ types))
    next => exact .misfit part opened _

theorem handles_expectLabel (part : registers.part = .object)
    (opened : registers.object = some object)
    (stage : object.stage = .type ∨ object.stage = .size)
    : Handles table options line registers (expectLabel options line registers object) := by
  simp only [expectLabel]
  split
  next labelled =>
    obtain ⟨label, labels, named⟩ := (Option.any_eq_true _ _).mp labelled
    exact .accepted part opened (.label stage labels (of_decide_eq_true named).symm)
  next => exact .misfit part opened _

theorem handles_expectPayload (part : registers.part = .object)
    (opened : registers.object = some object) (stage : object.stage = .label)
    (handles : expectPayload options line registers object = .ok handled)
    : Handles table options line registers handled := by
  simp only [expectPayload] at handles
  split at handles
  next =>
    cases handles
    exact .misfit part opened _
  next payload stores =>
    cases decoded : registers.decode line payload with
    | error halt => simp [decoded, Except.map] at handles
    | ok bytes =>
        simp only [decoded, Except.map, Except.ok.injEq] at handles
        exact handles ▸ .accepted part opened (.payload stage stores (bytes_of_decode decoded))

theorem handles_goOn (part : registers.part = .object) (opened : registers.object = some object)
    (early : object.stage ≠ .label ∧ object.stage ≠ .payload)
    : Handles table options line registers (goOn options line registers object) := by
  simp only [goOn]
  split
  next aligns => exact .accepted part opened (.align early aligns)
  next =>
    split
    next stage =>
      split
      next anchor defines => exact .accepted part opened (.anchor stage defines)
      next => exact handles_expectType part opened (.inl stage)
    next stage => exact handles_expectType part opened (.inr stage)
    next stage =>
      split
      next sized =>
        obtain ⟨size, sizes, named⟩ := (Option.any_eq_true _ _).mp sized
        exact .accepted part opened (.size stage sizes (of_decide_eq_true named).symm)
      next => exact handles_expectLabel part opened (.inl stage)
    next opening anchor type =>
      refine handles_expectLabel part opened (.inr ?_)
      cases stage : object.stage <;> simp_all

theorem handles_object (part : registers.part = .object)
    (handles : handleObject table options line registers = .ok handled)
    : Handles table options line registers handled := by
  simp only [handleObject] at handles
  split at handles
  next closed =>
    cases handles
    exact .opening part closed
  next object opened =>
    split at handles
    next stage =>
      split at handles
      next =>
        cases handles
        exact .misfit part opened _
      next ends =>
        cases finished : registers.finishObject table options object with
        | error halt => simp [finished, Except.map] at handles
        | ok after =>
            simp only [finished, Except.map, Except.ok.injEq] at handles
            exact handles ▸ .completed part opened stage (by simpa using ends) finished
    next stage => exact handles_expectPayload part opened stage handles
    next payload label =>
      cases handles
      exact handles_goOn part opened ⟨label, payload⟩

/-- What a handler leaves behind is what a rule says, by cases on the part. -/
theorem handles_of_handle (handles : registers.handle table options line = .ok handled)
    : Handles table options line registers handled := by
  simp only [handle] at handles
  split at handles
  next part =>
    cases handles
    exact handles_outside part
  next part => exact handles_rodata part handles
  next part => exact handles_object part handles

-----------------------------------------------------------------------------------------
-- One handler after another
-----------------------------------------------------------------------------------------

/-- A bound on how often a line may still be read: a line that is read again has closed a block or
moved on to a part further down.
-/
def rank (registers : Registers) : Nat :=
  (match registers.part with
    | .object => 0
    | .outside => 1
    | .rodata => 2)
    + registers.literal.toList.length + 3 * registers.object.toList.length

/-- Each call that leaves the line to be read again lowers the bound, by cases on the rules. -/
theorem rank_handle (handles : registers.handle table options line = .ok handled)
    (again : handled.again = true)
    : handled.registers.rank < registers.rank := by
  cases handles_of_handle handles with
  | functionSection part _ => simp [rank, part]
  | sectionSwitch part _ _ => simp [rank, part]
  | @literalEnds literal part opened _ =>
      obtain ⟨written, resolution, stats, notes, closed, -⟩ :=
        finishLiteral_eq table options registers literal
      simp [closed, rank, part, opened]
  | completed part opened _ _ finished =>
      obtain ⟨symbol, written, resolution, stats, notes, -, rfl, -⟩ := finishObject_eq finished
      simp only [rank, part, opened, Option.toList_some, Option.toList_none, List.length_cons,
        List.length_nil]
      omega
  | misfit part opened reason =>
      simp only [abort, note, count, write, rank, part, opened, Option.toList_some,
        Option.toList_none, List.length_cons, List.length_nil]
      omega
  | rodataSection | outside | payload | leftAlone | anchor | label | other | opening | accepted =>
      cases again

end

/-- Read the line until a handler is done with it. -/
def finishLine (table : Rom.Table) (options : Options) (line : String) (registers : Registers)
    : Except Halt Registers :=
  match _h : registers.handle table options line with
  | .error halt => .error halt
  | .ok handled =>
      if _again : handled.again = true then handled.registers.finishLine table options line
      else .ok handled.registers
termination_by registers.rank
decreasing_by exact rank_handle _h _again

theorem finishLine_eq (table : Rom.Table) (options : Options) (line : String)
    (registers : Registers)
    : registers.finishLine table options line
      = match registers.handle table options line with
        | .error halt => .error halt
        | .ok handled =>
            if handled.again = true then handled.registers.finishLine table options line
            else .ok handled.registers := by
  rw [finishLine]
  split <;> rename_i handles <;> rw [handles]
  simp only [dite_eq_ite]

-----------------------------------------------------------------------------------------
-- One line after another
-----------------------------------------------------------------------------------------

/-- The registers with the next line, which is to be read. -/
def next (registers : Registers) (line : String) : Registers :=
  { registers with number := registers.number + 1, line }

def readAll (table : Rom.Table) (options : Options) (registers : Registers)
    : List String → Except Halt Registers
  | [] => .ok registers
  | line :: rest =>
      match (registers.next line).finishLine table options line with
      | .error halt => .error halt
      | .ok after => after.readAll table options rest

/-- Clear the registers of what an input before has left in them. -/
def reset (registers : Registers) : Registers :=
  { registers with
    part := .outside
    leftAlone := false
    literal := none
    object := none
    number := 0
    line := ""
    output := []
    resolution := []
    stats := {}
    notes := [] }

/-- What messages call the block that is open. -/
def openBlock? (registers : Registers) : Option String :=
  registers.literal.map OpenLiteral.label <|> registers.object.map OpenObject.name

/-- The end of the input. No block may be open there. -/
def close (registers : Registers) : Except Halt Registers :=
  match registers.openBlock? with
  | some block => .error (.fault (.truncated registers.number registers.line block))
  | none => .ok registers

/-- Scan an input from its start, whatever the registers hold. -/
def scan (table : Rom.Table) (options : Options) (registers : Registers) (lines : List String)
    : Except Halt Registers :=
  (registers.reset.readAll table options lines).bind close

end Registers

end RomStrings.Scan
