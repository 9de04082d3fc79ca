import RomStrings.Proofs.Assembly.Replaced
import RomStrings.Scan.Mode

/-!
The lines and bytes of a block while it is collected. Every line that a block takes fits one rule,
so what a block stores and what it is called can be read off its lines.
-/

namespace RomStrings

open Assembly

-----------------------------------------------------------------------------------------
-- Stored bytes
-----------------------------------------------------------------------------------------

/-- The payload lines among the lines all decode, and their bytes, one line behind the other, are
the given ones.
-/
inductive Stores : List String → Bytes → Prop
  | nil : Stores [] []
  | other {line lines bytes} (plain : payload? line = none) (rest : Stores lines bytes)
    : Stores (line :: lines) bytes
  | payload {line lines payload own bytes} (stores : payload? line = some payload)
    (decodes : payload.bytes = .ok own) (rest : Stores lines bytes)
    : Stores (line :: lines) (own ++ bytes)

/-- Stored bytes are put one behind the other, by induction on the lines in front. -/
theorem Stores.append {lines more : List String} {bytes later : Bytes}
    (first : Stores lines bytes) (second : Stores more later)
    : Stores (lines ++ more) (bytes ++ later) := by
  induction first with
  | nil => exact second
  | other plain _ ih => exact .other plain ih
  | payload stores decodes _ ih =>
      rw [List.append_assoc]
      exact .payload stores decodes ih

/-- A line without data stores nothing in front of other lines. -/
theorem Stores.of_other {line : String} {lines : List String} {bytes : Bytes}
    (stored : Stores (line :: lines) bytes) (plain : payload? line = none)
    : Stores lines bytes := by
  cases stored with
  | other _ rest => exact rest
  | payload stores _ _ => simp [plain] at stores

/-- Lines store one string of bytes only, by induction on them. -/
theorem Stores.unique {lines : List String} {bytes others : Bytes}
    (first : Stores lines bytes) (second : Stores lines others)
    : bytes = others := by
  induction first generalizing others with
  | nil => cases second; rfl
  | other plain _ ih =>
      cases second with
      | other _ rest => exact ih rest
      | payload stores _ _ => simp [plain] at stores
  | payload stores decodes _ ih =>
      cases second with
      | other plain _ => simp [plain] at stores
      | payload stores' decodes' rest =>
          rw [stores] at stores'
          cases stores'
          rw [decodes] at decodes'
          cases decodes'
          rw [ih rest]

-----------------------------------------------------------------------------------------
-- Literals
-----------------------------------------------------------------------------------------

/-- The literal is what a scan collects from a label line and the payload lines behind it. -/
structure Literal.Collected (literal : Literal) : Prop where
  stays : isSectionSwitch literal.labelLine = false
  labels : label? literal.labelLine = some literal.label
  stores : ∀ pair ∈ literal.payloads, ∃ payload,
    payload? pair.1 = some payload ∧ payload.bytes = .ok pair.2

theorem Literal.Collected.add {literal : Literal} (collected : literal.Collected) {line : String}
    {payload : Payload} {bytes : Bytes} (stores : payload? line = some payload)
    (decodes : payload.bytes = .ok bytes)
    : (literal.add line bytes).Collected := by
  refine { stays := collected.stays, labels := collected.labels, stores := ?_ }
  intro pair member
  rcases List.mem_append.mp member with member | member
  · exact collected.stores pair member
  · obtain rfl := List.mem_singleton.mp member
    exact ⟨payload, stores, decodes⟩

/-- A literal's bytes are those of its lines, by induction on its payload lines. -/
theorem Literal.Collected.stored {literal : Literal} (collected : literal.Collected)
    : Stores literal.lines literal.bytes := by
  obtain ⟨label, number, labelLine, payloads⟩ := literal
  obtain ⟨-, labels, stores⟩ := collected
  have data : Stores (payloads.map Prod.fst) (payloads.flatMap Prod.snd) := by
    clear labels
    induction payloads with
    | nil => exact .nil
    | cons pair rest ih =>
        obtain ⟨⟨payload, known, decodes⟩, others⟩ := List.forall_mem_cons.mp stores
        simpa using Stores.payload known decodes (ih others)
  exact .other (payload?_of_label? labels) data

-----------------------------------------------------------------------------------------
-- The grammar of a function-name object
-----------------------------------------------------------------------------------------

/-- The line has no form that the grammar of a function-name object asks for. -/
structure Formless (line : String) : Prop where
  align : isAlign line = false
  anchor : anchorDefinition? line = none
  type : typeOf? line = none
  size : sizeOf? line = none
  label : label? line = none
  payload : payload? line = none

theorem Formless.of_inert {line : String} (inert : Inert line) : Formless line :=
  { align := inert.isAlign
    anchor := inert.anchorDefinition?
    type := inert.typeOf?
    size := inert.sizeOf?
    label := inert.label
    payload := inert.payload? }

/-- A section line with a section on it is formless, since it has one directive only. -/
theorem Formless.of_section {line : String} {operands : List Char}
    (found : operandsOf? "section" line.toList = some operands)
    : Formless line := by
  have named : isDirective ["section"] line.toList = true := isDirective_of_operandsOf? found
  have set : operandsOf? "set" line.toList = none := operandsOf?_of_isDirective (by decide) named
  have type : operandsOf? "type" line.toList = none :=
    operandsOf?_of_isDirective (by decide) named
  have size : operandsOf? "size" line.toList = none :=
    operandsOf?_of_isDirective (by decide) named
  exact {
    align := isDirective_of_apart (by decide) named
    anchor := by simp [anchorDefinition?, symbolThen?, set]
    type := by simp [typeOf?, symbolThen?, type]
    size := by simp [sizeOf?, symbolThen?, size]
    label := label?_of_operandsOf? found
    payload := payload?_of_isDirective (by decide) named
  }

namespace FunctionStage

/-- What a line without a form comes to: it completes the object, or it does not fit. -/
def stop : FunctionStage → Advance
  | .opened => .misfit .noType
  | .anchored _ => .misfit .noType
  | .typed _ symbol => .misfit (.noLabel symbol)
  | .sized _ symbol => .misfit (.noLabel symbol)
  | .labelled _ _ => .misfit .noPayload
  | .filled anchor symbol bytes => .complete anchor symbol bytes

/-- The rules by which the grammar takes a line. -/
inductive Fits (line : String) : FunctionStage → FunctionStage → Prop
  | align {stage} (aligns : isAlign line = true) : Fits line stage stage
  | anchor {anchor} (defines : anchorDefinition? line = some anchor)
    : Fits line .opened (.anchored anchor)
  | typeFirst {symbol} (types : typeOf? line = some (symbol, "object"))
    : Fits line .opened (.typed none symbol)
  | type {anchor symbol} (types : typeOf? line = some (symbol, "object"))
    : Fits line (.anchored anchor) (.typed (some anchor) symbol)
  | size {anchor symbol} (sizes : isSizeOf symbol line = true)
    : Fits line (.typed anchor symbol) (.sized anchor symbol)
  | labelFirst {anchor symbol} (labels : label? line = some symbol)
    : Fits line (.typed anchor symbol) (.labelled anchor symbol)
  | label {anchor symbol} (labels : label? line = some symbol)
    : Fits line (.sized anchor symbol) (.labelled anchor symbol)
  | payload {anchor symbol payload bytes} (stores : payload? line = some payload)
    (decodes : payload.bytes = .ok bytes)
    : Fits line (.labelled anchor symbol) (.filled anchor symbol bytes)

variable {number : Nat} {line : String} {stage next : FunctionStage}

theorem advance_of_formless (formless : Formless line) (number : Nat) (stage : FunctionStage)
    : stage.advance number line = .ok stage.stop := by
  obtain ⟨align, anchor, type, size, label, payload⟩ := formless
  cases stage <;>
    simp [advance, stop, alignedOr, align, anchor, expectType, type, expectLabel, isSizeOf, size,
      label, payload]

/-- The number of a line matters to messages only. -/
theorem advance_number {means : Advance} (advances : stage.advance number line = .ok means)
    (other : Nat)
    : stage.advance other line = .ok means := by
  cases stage with
  | opened | anchored _ | typed _ _ | sized _ _ | filled _ _ _ => exact advances
  | labelled anchor symbol =>
      simp only [advance] at advances ⊢
      cases stores : payload? line with
      | none => simpa [stores] using advances
      | some payload =>
          cases decodes : payload.bytes with
          | error fault => simp [stores, Scan.payloadBytes, decodes, Except.map] at advances
          | ok bytes => simpa [stores, Scan.payloadBytes, decodes, Except.map] using advances

theorem accept_of_alignedOr {advance : Advance}
    (accepts : stage.alignedOr line advance = .accept next)
    : isAlign line = true ∧ next = stage ∨ advance = .accept next := by
  simp only [alignedOr] at accepts
  split at accepts
  next aligns => cases accepts; exact .inl ⟨aligns, rfl⟩
  next => exact .inr accepts

theorem accept_of_expectType {anchor : Option String}
    (accepts : expectType anchor line = .accept next)
    : ∃ symbol, typeOf? line = some (symbol, "object") ∧ next = .typed anchor symbol := by
  simp only [expectType] at accepts
  split at accepts
  next => cases accepts
  next symbol kind types =>
    split at accepts
    next object => cases accepts; exact ⟨symbol, object ▸ types, rfl⟩
    next => cases accepts

theorem accept_of_expectLabel {anchor : Option String} {symbol : String}
    (accepts : expectLabel anchor symbol line = .accept next)
    : label? line = some symbol ∧ next = .labelled anchor symbol := by
  simp only [expectLabel] at accepts
  split at accepts
  next labels => cases accepts; exact ⟨labels, rfl⟩
  next => cases accepts

/-- A line that is accepted fits a rule, by cases on the stage and the form that it asks for. -/
theorem fits_of_advance (advances : stage.advance number line = .ok (.accept next))
    : Fits line stage next := by
  cases stage with
  | opened =>
      rcases accept_of_alignedOr (Except.ok.inj advances) with ⟨aligns, rfl⟩ | accepts
      · exact .align aligns
      · cases defines : anchorDefinition? line with
        | some anchor =>
            simp only [defines] at accepts
            cases accepts
            exact .anchor defines
        | none =>
            simp only [defines] at accepts
            obtain ⟨symbol, types, rfl⟩ := accept_of_expectType accepts
            exact .typeFirst types
  | anchored anchor =>
      rcases accept_of_alignedOr (Except.ok.inj advances) with ⟨aligns, rfl⟩ | accepts
      · exact .align aligns
      · obtain ⟨symbol, types, rfl⟩ := accept_of_expectType accepts
        exact .type types
  | typed anchor symbol =>
      rcases accept_of_alignedOr (Except.ok.inj advances) with ⟨aligns, rfl⟩ | accepts
      · exact .align aligns
      · split at accepts
        next sizes => cases accepts; exact .size sizes
        next =>
          obtain ⟨labels, rfl⟩ := accept_of_expectLabel accepts
          exact .labelFirst labels
  | sized anchor symbol =>
      rcases accept_of_alignedOr (Except.ok.inj advances) with ⟨aligns, rfl⟩ | accepts
      · exact .align aligns
      · obtain ⟨labels, rfl⟩ := accept_of_expectLabel accepts
        exact .label labels
  | labelled anchor symbol =>
      simp only [advance] at advances
      cases stores : payload? line with
      | none => simp [stores] at advances
      | some payload =>
          cases decodes : payload.bytes with
          | error fault => simp [stores, Scan.payloadBytes, decodes, Except.map] at advances
          | ok bytes =>
              simp only [stores, Scan.payloadBytes, decodes, Except.map] at advances
              cases advances
              exact .payload stores decodes
  | filled anchor symbol bytes =>
      have accepts := Except.ok.inj advances
      split at accepts <;> cases accepts

/-- An object is complete where no more data follows its payload. -/
theorem eq_filled_of_complete {anchor : Option String} {symbol : String} {bytes : Bytes}
    (advances : stage.advance number line = .ok (.complete anchor symbol bytes))
    : stage = .filled anchor symbol bytes ∧ payload? line = none := by
  cases stage with
  | opened | anchored _ | typed _ _ | sized _ _ | labelled _ _ =>
      simp only [advance, alignedOr, expectType, expectLabel, Except.map] at advances
      grind
  | filled other named stored =>
      simp only [advance] at advances
      cases stores : payload? line with
      | some payload => simp [stores] at advances
      | none =>
          simp only [stores, Option.isSome_none, Bool.false_eq_true, if_false] at advances
          cases advances
          exact ⟨rfl, rfl⟩

/-- A line that fits has a form. -/
theorem Fits.not_formless (fits : Fits line stage next) : ¬Formless line := by
  intro given
  obtain ⟨align, anchor, type, size, label, payload⟩ := given
  cases fits with
  | align aligns => simp [align] at aligns
  | anchor defines => simp [anchor] at defines
  | typeFirst types | type types => simp [type] at types
  | size sizes => simp [isSizeOf, size] at sizes
  | labelFirst labels | label labels => simp [label] at labels
  | payload stores _ => simp [payload] at stores

/-- No section of read-only data is opened within an object. -/
theorem Fits.isRodataSection (fits : Fits line stage next) : isRodataSection line = false := by
  cases opens : Assembly.isRodataSection line with
  | false => rfl
  | true =>
      obtain ⟨operands, found⟩ := operandsOf?_of_isRodataSection opens
      exact absurd (Formless.of_section found) fits.not_formless

/-- The bytes read so far. -/
def bytes : FunctionStage → Bytes
  | .filled _ _ bytes => bytes
  | _ => []

/-- The anchor read so far. -/
def anchor? : FunctionStage → Option String
  | .opened => none
  | .anchored anchor => some anchor
  | .typed anchor _ => anchor
  | .sized anchor _ => anchor
  | .labelled anchor _ => anchor
  | .filled anchor _ _ => anchor

/-- The label read so far. -/
def label? : FunctionStage → Option String
  | .labelled _ symbol => some symbol
  | .filled _ symbol _ => some symbol
  | _ => none

/-- The line adds its bytes to those read before. -/
theorem Fits.stores (fits : Fits line stage next)
    : ∃ own, Stores [line] own ∧ next.bytes = stage.bytes ++ own := by
  have plain : payload? line = none → Stores [line] [] := fun plain => .other plain .nil
  cases fits with
  | align aligns =>
      exact ⟨[], plain (payload?_of_isDirective (by decide) aligns), by simp⟩
  | anchor defines =>
      obtain ⟨operands, found⟩ := operandsOf?_of_anchorDefinition? defines
      exact ⟨[], plain (payload?_of_operandsOf? (by decide) found), rfl⟩
  | typeFirst types | type types =>
      obtain ⟨operands, found⟩ := operandsOf?_of_typeOf? types
      exact ⟨[], plain (payload?_of_operandsOf? (by decide) found), rfl⟩
  | size sizes =>
      obtain ⟨size, known, -⟩ := (Option.any_eq_true _ _).mp sizes
      obtain ⟨operands, found⟩ := operandsOf?_of_sizeOf? known
      exact ⟨[], plain (payload?_of_operandsOf? (by decide) found), rfl⟩
  | labelFirst labels | label labels =>
      exact ⟨[], plain (payload?_of_label? labels), rfl⟩
  | payload stores decodes => exact ⟨_, by simpa using Stores.payload stores decodes .nil, rfl⟩

theorem Fits.anchor? (fits : Fits line stage next)
    : next.anchor? = stage.anchor? ∨ next.anchor? = anchorDefinition? line := by
  cases fits with
  | anchor defines => exact .inr defines.symm
  | align | typeFirst | type | size | labelFirst | label | payload => exact .inl rfl

theorem Fits.label? (fits : Fits line stage next)
    : next.label? = stage.label? ∨ next.label? = Assembly.label? line := by
  cases fits with
  | labelFirst labels | label labels => exact .inr labels.symm
  | align | anchor | typeFirst | type | size | payload => exact .inl rfl

end FunctionStage

-----------------------------------------------------------------------------------------
-- Function-name objects
-----------------------------------------------------------------------------------------

/-- The object is what a scan collects from a section line and lines that fit the grammar. -/
inductive FunctionBlock.Collected : FunctionBlock → Prop
  | start {number line} (opens : isFunctionSection line = true) : Collected (.start number line)
  | add {block number line stage} (collected : Collected block)
    (accepts : block.stage.advance number line = .ok (.accept stage))
    : Collected (block.add line stage)

namespace FunctionBlock

variable {block : FunctionBlock}

theorem lines_complete (anchor : Option String) (symbol : String) (bytes : Bytes)
    : (block.complete anchor symbol bytes).lines = block.lines :=
  rfl

/-- An object starts with its section line, by induction on the lines collected. -/
theorem Collected.opening (collected : block.Collected)
    : ∃ line others, block.lines = line :: others ∧ isFunctionSection line = true := by
  induction collected with
  | @start _ line opens => exact ⟨line, [], rfl, opens⟩
  | @add block _ last _ _ _ ih =>
      obtain ⟨line, others, same, opens⟩ := ih
      exact ⟨line, others ++ [last], by simp [FunctionBlock.add, same], opens⟩

/-- An object's bytes are those of its lines, by induction on the lines collected. -/
theorem Collected.stored (collected : block.Collected) : Stores block.lines block.stage.bytes := by
  induction collected with
  | start opens =>
      obtain ⟨operands, found⟩ := operandsOf?_of_isFunctionSection opens
      exact .other (Formless.of_section found).payload .nil
  | add _ accepts ih =>
      obtain ⟨own, stores, bytes⟩ := (FunctionStage.fits_of_advance accepts).stores
      simpa [FunctionBlock.add, bytes] using ih.append stores

/-- What a stage has read stands on one of the object's lines, if no fitting line gives the stage
anything but its own form. By induction on the lines collected.
-/
theorem Collected.exists_line {view : FunctionStage → Option String}
    {form : String → Option String} {value : String} (opened : view .opened = none)
    (fits
      : ∀ {line stage next}, FunctionStage.Fits line stage next
          → view next = view stage ∨ view next = form line)
    (collected : block.Collected) (known : view block.stage = some value)
    : ∃ line ∈ block.lines, form line = some value := by
  induction collected with
  | start _ =>
      rw [FunctionBlock.start, opened] at known
      cases known
  | @add block number line stage _ accepts ih =>
      rcases fits (FunctionStage.fits_of_advance accepts) with same | gives
      · obtain ⟨earlier, member, gives⟩ := ih (same ▸ known)
        exact ⟨earlier, List.mem_append_left _ member, gives⟩
      · exact ⟨line, by simp [FunctionBlock.add], gives ▸ known⟩

theorem Collected.anchor {anchor : String} (collected : block.Collected)
    (known : block.stage.anchor? = some anchor)
    : ∃ line ∈ block.lines, anchorDefinition? line = some anchor :=
  collected.exists_line rfl FunctionStage.Fits.anchor? known

theorem Collected.label {label : String} (collected : block.Collected)
    (known : block.stage.label? = some label)
    : ∃ line ∈ block.lines, label? line = some label :=
  collected.exists_line rfl FunctionStage.Fits.label? known

end FunctionBlock

end RomStrings
