import RomStrings.Proofs.Scan.Refinement

/-!
The registers of a scan, in step with each other. A handler that is called with registers in step
leaves them so, or on the section line that is to open an object, and behind every line they are in
step again. So an object that is complete has its symbol, and a block that is open goes on or is
written before another one opens.
-/

namespace RomStrings.Scan.Registers

open Assembly

variable {table : Rom.Table} {options : Options} {registers : Registers} {line : String}

-----------------------------------------------------------------------------------------
-- Registers in step
-----------------------------------------------------------------------------------------

/-- The registers of an open block agree with the part and with each other, and what they hold of
the block stands on its lines.
-/
structure Consistent (registers : Registers) : Prop where
  object : registers.object.isSome = true ↔ registers.part = .object
  literal
    : registers.literal.isSome = true
      → registers.part = .rodata ∧ registers.leftAlone = false ∧ registers.object = none
  openLiteral : ∀ literal, registers.literal = some literal → literal.ReadOffLines
  openObject : ∀ object, registers.object = some object → object.ReadOffLines

/-- The line is the section line of an object and is to open it. -/
structure EntersObject (line : String) (registers : Registers) : Prop where
  opens : isFunctionSection line = true
  part : registers.part = .object
  literal : registers.literal = none
  object : registers.object = none

/-- Registers with no block open are in step outside the part of objects. -/
theorem Consistent.of_closed (literal : registers.literal = none)
    (object : registers.object = none) (part : registers.part ≠ .object)
    : registers.Consistent where
  object := by simp [object, part]
  literal := by simp [literal]
  openLiteral := by simp [literal]
  openObject := by simp [object]

/-- Registers with a literal open are in step in read-only data that is read. -/
theorem Consistent.of_literal {literal : OpenLiteral} (opened : registers.literal = some literal)
    (object : registers.object = none) (part : registers.part = .rodata)
    (read : registers.leftAlone = false) (lines : literal.ReadOffLines)
    : registers.Consistent where
  object := by simp [object, part]
  literal := fun _ => ⟨part, read, object⟩
  openLiteral other known := by
    rw [opened] at known
    exact Option.some.inj known ▸ lines
  openObject := by simp [object]

/-- Registers with an object open are in step in the part of objects. -/
theorem Consistent.of_object {object : OpenObject} (opened : registers.object = some object)
    (literal : registers.literal = none) (part : registers.part = .object)
    (lines : object.ReadOffLines)
    : registers.Consistent where
  object := by simp [opened, part]
  literal := by simp [literal]
  openLiteral := by simp [literal]
  openObject other known := by
    rw [opened] at known
    exact Option.some.inj known ▸ lines

theorem Consistent.object_eq_none (consistent : registers.Consistent)
    (part : registers.part ≠ .object)
    : registers.object = none :=
  Option.not_isSome_iff_eq_none.mp (mt consistent.object.mp part)

theorem Consistent.literal_eq_none (consistent : registers.Consistent)
    (part : registers.part ≠ .rodata)
    : registers.literal = none :=
  Option.not_isSome_iff_eq_none.mp fun opened => part (consistent.literal opened).1

theorem Consistent.next (consistent : registers.Consistent) (line : String)
    : (registers.next line).Consistent :=
  ⟨consistent.object, consistent.literal, consistent.openLiteral, consistent.openObject⟩

/-- A handler may be called for the line. -/
def Ready (line : String) (registers : Registers) : Prop :=
  registers.Consistent ∨ registers.EntersObject line

theorem Ready.of_part (ready : registers.Ready line) (part : registers.part ≠ .object)
    : registers.Consistent :=
  ready.resolve_right fun enters => part enters.part

theorem Ready.of_object (ready : registers.Ready line) {object : OpenObject}
    (opened : registers.object = some object)
    : registers.Consistent :=
  ready.resolve_right fun enters => by simp [enters.object] at opened

theorem Ready.object_eq_none (ready : registers.Ready line) (part : registers.part ≠ .object)
    : registers.object = none :=
  (ready.of_part part).object_eq_none part

theorem Ready.literal_eq_none (ready : registers.Ready line) (part : registers.part ≠ .rodata)
    : registers.literal = none := by
  rcases ready with consistent | enters
  · exact consistent.literal_eq_none part
  · exact enters.literal

-----------------------------------------------------------------------------------------
-- One call of a handler
-----------------------------------------------------------------------------------------

/-- A handler leaves the registers in step, or on the section line of an object, which is to be read
again. By cases on the rules.
-/
theorem Ready.handles {handled : Handled} (ready : registers.Ready line)
    (handles : Handles table options line registers handled)
    : handled.registers.Consistent
      ∨ handled.again = true ∧ handled.registers.EntersObject line := by
  cases handles with
  | functionSection part opens =>
      exact .inr ⟨rfl, {
        opens
        part := rfl
        literal := ready.literal_eq_none (by simp [part])
        object := ready.object_eq_none (by simp [part])
      }⟩
  | rodataSection part _ _ | outside part _ _ =>
      exact .inl (.of_closed (ready.literal_eq_none (by simp [part]))
        (ready.object_eq_none (by simp [part])) nofun)
  | payload part opened stores decodes =>
      have consistent := ready.of_part (by simp [part])
      obtain ⟨-, read, object⟩ := consistent.literal (Option.isSome_of_eq_some opened)
      exact .inl (.of_literal rfl object rfl read
        ((consistent.openLiteral _ opened).add stores decodes))
  | @literalEnds literal part _ _ =>
      obtain ⟨written, resolution, stats, notes, closed, -⟩ :=
        finishLiteral_eq table options registers literal
      rw [closed]
      exact .inl (.of_closed rfl (ready.object_eq_none (by simp [part])) nofun)
  | sectionSwitch part closed _ | leftAlone part closed _ _ | anchor part closed _ _ _
    | other part closed _ _ _ _ =>
      exact .inl (.of_closed closed (ready.object_eq_none (by simp [part])) nofun)
  | label part _ _ read _ labels =>
      exact .inl (.of_literal rfl (ready.object_eq_none (by simp [part])) rfl read
        (OpenLiteral.readOffLines_opening _ labels))
  | opening part closed =>
      -- Registers in step have an object open in this part, so the line is a section line.
      rcases ready with consistent | enters
      · have opened := consistent.object.mpr part
        simp [closed] at opened
      · have lines := OpenObject.readOffLines_opening registers.number enters.opens
        exact .inl (.of_object rfl enters.literal rfl lines)
  | accepted part opened accepts =>
      have lines := (ready.of_object opened).openObject _ opened
      exact .inl (.of_object rfl (ready.literal_eq_none (by simp [part])) rfl
        (lines.accepts accepts))
  | completed part _ _ _ finished =>
      obtain ⟨symbol, written, resolution, stats, notes, -, rfl, -⟩ := finishObject_eq finished
      exact .inl (.of_closed (ready.literal_eq_none (by simp [part])) rfl nofun)
  | misfit part _ _ => exact .inl (.of_closed (ready.literal_eq_none (by simp [part])) rfl nofun)

/-- A literal that is open takes the line, or it is closed and written. -/
inductive HandsOverLiteral (options : Options) (line : String) (literal : OpenLiteral)
    (before after : Registers)
    : Prop
  | grows {bytes} (opened : after.literal = some (literal.add line bytes))
    (output : after.output = before.output)
    : HandsOverLiteral options line literal before after
  | written {written} (closed : after.literal = none)
    (output : after.output = before.output ++ written)
    (whole : WrittenOf options literal.lines literal.label none written)
    : HandsOverLiteral options line literal before after

/-- An object that is open takes the line, or it is closed and written, under its symbol or as it
is.
-/
inductive HandsOverObject (options : Options) (line : String) (object : OpenObject)
    (before after : Registers)
    : Prop
  | grows {more} (accepts : object.Accepts line more) (opened : after.object = some more)
    (output : after.output = before.output)
    : HandsOverObject options line object before after
  | written {symbol written} (closed : after.object = none)
    (output : after.output = before.output ++ written) (named : object.symbol = some symbol)
    (whole : WrittenOf options object.lines symbol (given object.anchor) written)
    : HandsOverObject options line object before after
  | givenUp (closed : after.object = none)
    (output : after.output = before.output ++ object.lines)
    : HandsOverObject options line object before after

/-- No block that is open when a handler is called makes room for another without being written. -/
structure HandsOver (options : Options) (line : String) (before after : Registers) : Prop where
  literal
    : ∀ literal,
        before.literal = some literal → HandsOverLiteral options line literal before after
  object
    : ∀ object, before.object = some object → HandsOverObject options line object before after

theorem HandsOver.of_closed {after : Registers} (literal : registers.literal = none)
    (object : registers.object = none)
    : HandsOver options line registers after where
  literal := by simp [literal]
  object := by simp [object]

theorem HandsOver.of_literal {literal : OpenLiteral} {after : Registers}
    (opened : registers.literal = some literal) (object : registers.object = none)
    (handsOver : HandsOverLiteral options line literal registers after)
    : HandsOver options line registers after where
  literal other known := by
    rw [opened] at known
    exact Option.some.inj known ▸ handsOver
  object := by simp [object]

theorem HandsOver.of_object {object : OpenObject} {after : Registers}
    (opened : registers.object = some object) (literal : registers.literal = none)
    (handsOver : HandsOverObject options line object registers after)
    : HandsOver options line registers after where
  literal := by simp [literal]
  object other known := by
    rw [opened] at known
    exact Option.some.inj known ▸ handsOver

/-- A handler hands over the block that is open, by cases on the rules. -/
theorem Ready.handsOver {handled : Handled} (ready : registers.Ready line)
    (handles : Handles table options line registers handled)
    : HandsOver options line registers handled.registers := by
  cases handles with
  | functionSection part _ | rodataSection part _ _ | outside part _ _ =>
      exact .of_closed (ready.literal_eq_none (by simp [part]))
        (ready.object_eq_none (by simp [part]))
  | sectionSwitch part closed _ | leftAlone part closed _ _ | anchor part closed _ _ _
    | label part closed _ _ _ _ | other part closed _ _ _ _ =>
      exact .of_closed closed (ready.object_eq_none (by simp [part]))
  | opening part closed => exact .of_closed (ready.literal_eq_none (by simp [part])) closed
  | payload part opened _ _ =>
      exact .of_literal opened (ready.object_eq_none (by simp [part])) (.grows rfl rfl)
  | @literalEnds literal part opened _ =>
      obtain ⟨written, resolution, stats, notes, closed, whole⟩ :=
        finishLiteral_eq table options registers literal
      rw [closed]
      exact .of_literal opened (ready.object_eq_none (by simp [part])) (.written rfl rfl whole)
  | accepted part opened accepts =>
      exact .of_object opened (ready.literal_eq_none (by simp [part])) (.grows accepts rfl rfl)
  | completed part opened _ _ finished =>
      obtain ⟨symbol, written, resolution, stats, notes, named, rfl, whole⟩ :=
        finishObject_eq finished
      exact .of_object opened (ready.literal_eq_none (by simp [part]))
        (.written rfl rfl named whole)
  | misfit part opened _ =>
      exact .of_object opened (ready.literal_eq_none (by simp [part])) (.givenUp rfl rfl)

/-- A payload that does not decode is at fault, and not for want of a name. -/
theorem map_decode_ne_nameless {payload : Payload} (view : Bytes → Handled)
    : (registers.decode line payload).map view ≠ .error .nameless := by
  rw [decode]
  cases payloadBytes registers.number line payload with
  | error fault =>
      intro fails
      cases fails
  | ok bytes =>
      intro fails
      cases fails

/-- Only an object that is complete can lack a symbol to be written under. -/
theorem nameless_of_handle (nameless : registers.handle table options line = .error .nameless)
    : ∃ object,
        registers.object = some object ∧ object.stage = .payload ∧ object.symbol = none := by
  simp only [handle] at nameless
  split at nameless
  next => cases nameless
  next =>
    simp only [handleRodata] at nameless
    split at nameless
    next =>
      split at nameless
      next => exact absurd nameless (map_decode_ne_nameless _)
      next => cases nameless
    next =>
      repeat' split at nameless
      all_goals cases nameless
  next =>
    simp only [handleObject] at nameless
    split at nameless
    next => cases nameless
    next object opened =>
      split at nameless
      next stage =>
        split at nameless
        next => cases nameless
        next =>
          simp only [finishObject] at nameless
          split at nameless
          next unnamed => exact ⟨object, opened, stage, unnamed⟩
          next => cases nameless
      next =>
        simp only [expectPayload] at nameless
        split at nameless
        next => cases nameless
        next => exact absurd nameless (map_decode_ne_nameless _)
      next => cases nameless

/-- No handler meets a complete object without a symbol. -/
theorem Ready.not_nameless (ready : registers.Ready line)
    : registers.handle table options line ≠ .error .nameless := by
  intro nameless
  obtain ⟨object, opened, stage, unnamed⟩ := nameless_of_handle nameless
  have lines := (ready.of_object opened).openObject _ opened
  have named := lines.symbol.mpr (.inr (.inr (.inr stage)))
  simp [unnamed] at named

-----------------------------------------------------------------------------------------
-- From handlers to lines
-----------------------------------------------------------------------------------------

/-- A handler is called for the line with these registers, where the line is first read with the
given ones.
-/
inductive Called (table : Rom.Table) (options : Options) (line : String) (first : Registers)
    : Registers → Prop
  | first : Called table options line first first
  | again {called handled} (before : Called table options line first called)
    (handles : called.handle table options line = .ok handled) (again : handled.again = true)
    : Called table options line first handled.registers

/-- Each call leaves the registers ready for the next, by induction on the calls. -/
theorem Ready.called {called : Registers} (ready : registers.Ready line)
    (calls : Called table options line registers called)
    : called.Ready line := by
  induction calls with
  | first => exact ready
  | again _ handles _ ih => exact (ih.handles (handles_of_handle handles)).imp_right And.right

/-- Behind the last call for a line the registers are in step, by induction on the calls. -/
theorem Ready.finishLine {after : Registers} (ready : registers.Ready line)
    (finished : registers.finishLine table options line = .ok after)
    : after.Consistent := by
  fun_induction Registers.finishLine table options line registers with
  | case1 => cases finished
  | case2 registers handled handles again ih =>
      exact ih ((ready.handles (handles_of_handle handles)).imp_right And.right) finished
  | case3 registers handled handles done =>
      cases finished
      exact (ready.handles (handles_of_handle handles)).resolve_right fun enters =>
        done enters.1

/-- Behind every line the registers are in step, by induction on the lines. -/
theorem Consistent.readAll {lines : List String} {after : Registers}
    (consistent : registers.Consistent)
    (read : registers.readAll table options lines = .ok after)
    : after.Consistent := by
  induction lines generalizing registers with
  | nil =>
      cases read
      exact consistent
  | cons line rest ih =>
      simp only [Registers.readAll] at read
      cases finished : (registers.next line).finishLine table options line with
      | error halt => simp [finished] at read
      | ok middle =>
          rw [finished] at read
          exact ih (Ready.finishLine (.inl (consistent.next line)) finished) read

theorem consistent_reset (registers : Registers) : registers.reset.Consistent :=
  .of_closed rfl rfl nofun

-----------------------------------------------------------------------------------------
-- A whole scan
-----------------------------------------------------------------------------------------

/-- What holds of a scan behind the lines that are handled to the end, whatever the registers held
before it.
-/
structure StaysInStep (table : Rom.Table) (options : Options) (used : Registers)
    (seen : List String)
    : Prop where
  /-- Behind the lines the registers are in step. -/
  consistent
    : ∀ registers, used.reset.readAll table options seen = .ok registers → registers.Consistent
  /-- No handler that is called for the line behind them meets a complete object that has no symbol,
  and none loses the block that is open. -/
  calls
    : ∀ registers line called,
        used.reset.readAll table options seen = .ok registers
        → Called table options line (registers.next line) called
        → called.handle table options line ≠ .error .nameless
          ∧ ∀ handled,
              called.handle table options line = .ok handled
              → HandsOver options line called handled.registers
  /-- The lines are handled to the end unless a payload does not decode. -/
  breaksOff
    : ∀ halt,
        used.reset.readAll table options seen = .error halt
        → ∃ number line column error, halt = .fault (.escape number line column error)
  /-- The registers are those of where the scan of segments stands behind the lines. -/
  stands
    : used.reset.readAll table options seen
      = match (history table seen).course.fault with
        | some fault => .error (.fault fault)
        | none =>
            .ok
              ((settle options { number := seen.length, line := seen.getLastD "" }
                  (history table seen).segments).inMode
                (history table seen).last.mode (history table seen).last.leftAlone)
  /-- If the input ends there, what is gathered is what its segments give. -/
  scans
    : (used.scan table options seen).map gathered
      = ((Scan.segments table seen).mapError Halt.fault).map fun segments =>
          (Replacement.scanned options.comment segments, Segments.notes options.file segments)

/-- A scan keeps its registers in step, handler by handler and line by line. -/
theorem scan_keeps_registers_in_step (table : Rom.Table) (options : Options) (used : Registers)
    (seen : List String)
    : StaysInStep table options used seen where
  consistent _ read := (consistent_reset used).readAll read
  calls registers line called read calls := by
    have start : (registers.next line).Ready line :=
      .inl (((consistent_reset used).readAll read).next line)
    have ready := start.called calls
    exact ⟨ready.not_nameless, fun _ handles => ready.handsOver (handles_of_handle handles)⟩
  breaksOff halt fails := by
    rw [readAll_reset] at fails
    split at fails
    next fault faulty =>
      cases fails
      rcases reads_or_escape table seen
        with ⟨settled, last, run⟩ | ⟨number, line, column, error, escape⟩
      · obtain ⟨faultless, -⟩ := run.course
        have same : none = some fault := faultless.symm.trans faulty
        cases same
      · rw [Scan.segments, History.outcome, faulty] at escape
        exact ⟨number, line, column, error, congrArg Halt.fault (Except.error.inj escape)⟩
    next => cases fails
  stands := readAll_reset table options used seen
  scans := scan_eq table options used seen

/-- An object that has come to its anchor is given up at the section line of the next object. It is
written as it is and leaves the registers in step, before the same line opens the next one.
-/
theorem scan_keeps_registers_in_step_on_section_line
    : let table := Rom.Table.ofImage [104, 105, 0] 4096
      let used : Registers :=
        { part := .rodata, leftAlone := true, number := 3, line := "\tnop", output := ["\tnop"] }
      let lines := ["\t.section\t.rodata.__func__.1,\"a\"", "\t.set\t.LANCHOR0,. + 0"]
      let seen := ["\t.section\t.rodata", ".LC0:", "\t.string\t\"hi\""] ++ lines
      let line := "\t.section\t.rodata.__func__.2,\"a\""
      ∃ registers handled,
        used.reset.readAll table {} seen = .ok registers
        ∧ registers.object
          = some { number := 4, lines, stage := .anchor, anchor := some ".LANCHOR0" }
        ∧ (registers.next line).handle table {} line = .ok handled
        ∧ (handled.again = true ∧ handled.registers.object = none)
        ∧ ((registers.next line).finishLine table {} line).toOption.map Registers.object
          = some (some { number := 6, lines := [line] })
        ∧ registers.Consistent
        ∧ HandsOver {} line (registers.next line) handled.registers := by
  intro table used lines seen line
  have reached
      : (used.reset.readAll table {} seen).toOption.map Registers.object
        = some (some
            { number := 4, lines, stage := .anchor, anchor := some ".LANCHOR0" }) := by
    decide +kernel
  have givenUp
      : ((used.reset.readAll table {} seen).bind fun registers =>
            (registers.next line).handle table {} line).toOption.map
          (fun handled => (handled.again, handled.registers.object))
        = some (true, none) := by
    decide +kernel
  have opened
      : ((used.reset.readAll table {} seen).bind fun registers =>
            (registers.next line).finishLine table {} line).toOption.map Registers.object
        = some (some { number := 6, lines := [line] }) := by
    decide +kernel
  obtain ⟨registers, read, object⟩ := exists_ok reached
  rw [read] at givenUp opened
  obtain ⟨handled, handles, closed⟩ := exists_ok givenUp
  have stays := scan_keeps_registers_in_step table {} used seen
  obtain ⟨-, handsOver⟩ := stays.calls registers line _ read .first
  exact ⟨registers, handled, read, object, handles, Prod.mk.inj closed, opened,
    stays.consistent registers read, handsOver handled handles⟩

end RomStrings.Scan.Registers
