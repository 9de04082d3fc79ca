import RomStrings.Proofs.Scan.Conservation
import RomStrings.Proofs.Scan.Region
import RomStrings.Scan.Handling

/-!
Blocks that are open between two lines, and the lines that end them. All that a block has read can
be read off its lines again: each line that it takes adds what it tells and takes nothing away. A
line that may change the section ends every block.
-/

namespace RomStrings

open Assembly

-----------------------------------------------------------------------------------------
-- What an object has read
-----------------------------------------------------------------------------------------

/-- What is known stands on one of the lines in the form, and what is not known stands on none. -/
def ReadOff (form : String → Option String) (lines : List String) : Option String → Prop
  | some value => ∃ line ∈ lines, form line = some value
  | none => ∀ line ∈ lines, form line = none

/-- One more line tells what it has in the form, and takes nothing away. -/
theorem ReadOff.snoc {form : String → Option String} {lines : List String} {line : String}
    {known : Option String} (before : ReadOff form lines known)
    : ReadOff form (lines ++ [line]) ((form line).or known) := by
  cases own : form line with
  | some value => exact ⟨line, by simp, own⟩
  | none =>
      rw [Option.none_or]
      cases known with
      | some value =>
          obtain ⟨earlier, member, gives⟩ := before
          exact ⟨earlier, List.mem_append_left _ member, gives⟩
      | none =>
          intro other member
          rcases List.mem_append.mp member with member | member
          · exact before other member
          · rw [List.mem_singleton.mp member, own]

/-- The symbol that the line makes an object. -/
def objectOf? (line : String) : Option String :=
  (typeOf? line).bind fun found => if found.2 = "object" then some found.1 else none

theorem anchorDefinition?_of_absent {line : String}
    (absent : operandsOf? "set" line.toList = none)
    : anchorDefinition? line = none := by
  simp [anchorDefinition?, symbolThen?, absent]

theorem objectOf?_of_absent {line : String} (absent : operandsOf? "type" line.toList = none)
    : objectOf? line = none := by
  simp [objectOf?, typeOf?, symbolThen?, absent]

/-- What a type line makes an object is a symbol. -/
theorem isSymbol_of_objectOf? {line symbol : String} (names : objectOf? line = some symbol)
    : IsSymbol symbol := by
  simp only [objectOf?, typeOf?, Option.bind_eq_bind, Option.bind_eq_some_iff] at names
  obtain ⟨found, ⟨pair, known, types⟩, named⟩ := names
  split at types
  next =>
    cases types
    split at named
    next =>
      cases named
      exact isSymbol_of_symbolThen? known
    next => cases named
  next => cases types

-----------------------------------------------------------------------------------------
-- Fields of an open block
-----------------------------------------------------------------------------------------

namespace Scan

/-- An open literal is a label line and as many payload lines behind it as were counted, and its
bytes are theirs.
-/
structure OpenLiteral.ReadOffLines (literal : OpenLiteral) : Prop where
  lines
    : ∃ labelLine payloads,
        literal.lines = labelLine :: payloads
        ∧ label? labelLine = some literal.label
        ∧ payloads.length = literal.payloadCount
        ∧ (∀ line ∈ payloads, isPayload line = true)
        ∧ Stores payloads literal.bytes

/-- A label line alone is a literal. -/
theorem OpenLiteral.readOffLines_opening {label line : String} (number : Nat)
    (labels : label? line = some label)
    : ReadOffLines { label, number, lines := [line] } where
  lines := ⟨line, [], rfl, labels, rfl, List.forall_mem_nil _, .nil⟩

/-- A payload line adds its bytes and is counted. -/
theorem OpenLiteral.ReadOffLines.add {literal : OpenLiteral} (read : literal.ReadOffLines)
    {line : String} {payload : Payload} {bytes : Bytes} (stores : payload? line = some payload)
    (decodes : payload.bytes = .ok bytes)
    : (literal.add line bytes).ReadOffLines where
  lines := by
    obtain ⟨labelLine, payloads, whole, labels, count, data, stored⟩ := read.lines
    have own : Stores [line] bytes := by simpa using Stores.payload stores decodes .nil
    refine ⟨labelLine, payloads ++ [line], ?_, labels, ?_, ?_, stored.append own⟩
    · rw [OpenLiteral.add, whole, List.cons_append]
    · rw [List.length_append, count]
      rfl
    · intro other member
      rcases List.mem_append.mp member with earlier | latest
      · exact data other earlier
      · rw [List.mem_singleton.mp latest]
        exact Option.isSome_of_eq_some stores

namespace OpenObject

variable {object more : OpenObject} {line : String}

/-- Of the lines that an object takes, only an anchor's definition defines one. -/
theorem Accepts.anchor_eq (accepts : object.Accepts line more)
    : more.anchor = (anchorDefinition? line).or object.anchor := by
  have kept (absent : operandsOf? "set" line.toList = none)
      : object.anchor = (anchorDefinition? line).or object.anchor := by
    rw [anchorDefinition?_of_absent absent, Option.none_or]
  cases accepts with
  | align _ aligns => exact kept (operandsOf?_of_isDirective (by decide) aligns)
  | anchor _ defines => rw [defines]; rfl
  | type _ types =>
      obtain ⟨operands, found⟩ := operandsOf?_of_typeOf? types
      exact kept (operandsOf?_of_isDirective (by decide) (isDirective_of_operandsOf? found))
  | size _ sizes _ =>
      obtain ⟨operands, found⟩ := operandsOf?_of_sizeOf? sizes
      exact kept (operandsOf?_of_isDirective (by decide) (isDirective_of_operandsOf? found))
  | label _ labels _ => exact kept (operandsOf?_of_label? labels "set")
  | payload _ stores _ =>
      exact kept (operandsOf?_of_isDirective (by decide) (isDirective_of_payload? stores))

/-- Of the lines that an object takes, only a type line names a symbol. -/
theorem Accepts.symbol_eq (accepts : object.Accepts line more)
    : more.symbol = (objectOf? line).or object.symbol := by
  have kept (absent : operandsOf? "type" line.toList = none)
      : object.symbol = (objectOf? line).or object.symbol := by
    rw [objectOf?_of_absent absent, Option.none_or]
  cases accepts with
  | align _ aligns => exact kept (operandsOf?_of_isDirective (by decide) aligns)
  | anchor _ defines =>
      obtain ⟨operands, found⟩ := operandsOf?_of_anchorDefinition? defines
      exact kept (operandsOf?_of_isDirective (by decide) (isDirective_of_operandsOf? found))
  | type _ types => simp [objectOf?, types, OpenObject.add]
  | size _ sizes _ =>
      obtain ⟨operands, found⟩ := operandsOf?_of_sizeOf? sizes
      exact kept (operandsOf?_of_isDirective (by decide) (isDirective_of_operandsOf? found))
  | label _ labels _ => exact kept (operandsOf?_of_label? labels "type")
  | payload _ stores _ =>
      exact kept (operandsOf?_of_isDirective (by decide) (isDirective_of_payload? stores))

/-- A line of an object that has no payload yet adds its bytes, which are none but for a payload. -/
theorem Accepts.stores (accepts : object.Accepts line more)
    (empty : object.stage = .label → object.bytes = [])
    : ∃ own, Stores [line] own ∧ more.bytes = object.bytes ++ own := by
  have plain (other : payload? line = none)
      : ∃ own, Stores [line] own ∧ object.bytes = object.bytes ++ own :=
    ⟨[], .other other .nil, (List.append_nil _).symm⟩
  cases accepts with
  | align _ aligns => exact plain (payload?_of_isDirective (by decide) aligns)
  | anchor _ defines =>
      obtain ⟨operands, found⟩ := operandsOf?_of_anchorDefinition? defines
      exact plain (payload?_of_operandsOf? (by decide) found)
  | type _ types =>
      obtain ⟨operands, found⟩ := operandsOf?_of_typeOf? types
      exact plain (payload?_of_operandsOf? (by decide) found)
  | size _ sizes _ =>
      obtain ⟨operands, found⟩ := operandsOf?_of_sizeOf? sizes
      exact plain (payload?_of_operandsOf? (by decide) found)
  | label _ labels _ => exact plain (payload?_of_label? labels)
  | @payload payload bytes stage stores decodes =>
      refine ⟨bytes, by simpa using Stores.payload stores decodes .nil, ?_⟩
      rw [empty stage]
      rfl

/-- An open object starts with its section line, and it has a symbol, an anchor, a label and bytes
as far as the grammar has come. All of them stand on its lines.
-/
structure ReadOffLines (object : OpenObject) : Prop where
  opening : ∃ line others, object.lines = line :: others ∧ isFunctionSection line = true
  /-- There is a symbol from the type line on. -/
  symbol
    : object.symbol.isSome = true
      ↔ object.stage = .type ∨ object.stage = .size ∨ object.stage = .label
        ∨ object.stage = .payload
  symbolLine : ReadOff objectOf? object.lines object.symbol
  anchorless : object.stage = .opening → object.anchor = none
  anchored : object.stage = .anchor → object.anchor.isSome = true
  anchorLine : ReadOff anchorDefinition? object.lines object.anchor
  /-- From the label on, one of the lines is the label of that very symbol. -/
  label
    : object.stage = .label ∨ object.stage = .payload
      → ∃ symbol,
          object.symbol = some symbol ∧ ∃ line ∈ object.lines, label? line = some symbol
  empty : object.stage ≠ .payload → object.bytes = []
  bytes : Stores object.lines object.bytes

/-- A section line alone is an object, and has no other form. -/
theorem readOffLines_opening (number : Nat) (opens : isFunctionSection line = true)
    : ReadOffLines { number, lines := [line] } := by
  obtain ⟨operands, found⟩ := operandsOf?_of_isFunctionSection opens
  have formless := Formless.of_section found
  exact {
    opening := ⟨line, [], rfl, opens⟩
    symbol := by simp
    symbolLine := by simp [ReadOff, objectOf?, formless.type]
    anchorless := fun _ => rfl
    anchored := nofun
    anchorLine := by simp [ReadOff, formless.anchor]
    label := by simp
    empty := fun _ => rfl
    bytes := .other formless.payload .nil
  }

theorem Accepts.lines_eq (accepts : object.Accepts line more)
    : more.lines = object.lines ++ [line] := by
  cases accepts <;> rfl

/-- A symbol comes with the type line and stays, by cases on the rules. -/
theorem ReadOffLines.symbol_of_accepts (read : object.ReadOffLines)
    (accepts : object.Accepts line more)
    : more.symbol.isSome = true
      ↔ more.stage = .type ∨ more.stage = .size ∨ more.stage = .label ∨ more.stage = .payload := by
  have before := read.symbol
  cases accepts with
  | align => exact before
  | anchor stage _ => simpa [OpenObject.add, stage] using before
  | type => simp [OpenObject.add]
  | size _ _ named | label _ _ named => simp [OpenObject.add, named]
  | payload stage _ _ => simpa [OpenObject.add, stage] using before

/-- The label line is taken or known, by cases on the rules. -/
theorem ReadOffLines.label_of_accepts (read : object.ReadOffLines)
    (accepts : object.Accepts line more) (reached : more.stage = .label ∨ more.stage = .payload)
    : ∃ symbol, more.symbol = some symbol ∧ ∃ own ∈ more.lines, label? own = some symbol := by
  rw [accepts.lines_eq]
  cases accepts with
  | align early _ => exact absurd reached (not_or.mpr early)
  | anchor | type | size => simp [OpenObject.add] at reached
  | label _ labels named =>
      exact ⟨_, named, line, List.mem_append_right _ List.mem_cons_self, labels⟩
  | payload stage _ _ =>
      obtain ⟨symbol, named, own, member, labels⟩ := read.label (.inl stage)
      exact ⟨symbol, named, own, List.mem_append_left _ member, labels⟩

/-- No line but the payload brings bytes, by cases on the rules. -/
theorem ReadOffLines.empty_of_accepts (read : object.ReadOffLines)
    (accepts : object.Accepts line more) (incomplete : more.stage ≠ .payload)
    : more.bytes = [] := by
  cases accepts with
  | align => exact read.empty incomplete
  | anchor stage _ | size stage _ _ => exact read.empty (by simp [stage])
  | type stage _ | label stage _ _ =>
      exact read.empty (by rcases stage with stage | stage <;> simp [stage])
  | payload => exact absurd rfl incomplete

/-- One more line keeps what the object has read in step with its lines. -/
theorem ReadOffLines.accepts (read : object.ReadOffLines) (accepts : object.Accepts line more)
    : more.ReadOffLines where
  opening := by
    obtain ⟨first, others, whole, opens⟩ := read.opening
    exact ⟨first, others ++ [line], by rw [accepts.lines_eq, whole, List.cons_append], opens⟩
  symbol := read.symbol_of_accepts accepts
  symbolLine := by
    rw [accepts.lines_eq, accepts.symbol_eq]
    exact read.symbolLine.snoc
  anchorless := by
    cases accepts with
    | align => exact read.anchorless
    | anchor | type | size | label | payload => exact nofun
  anchored := by
    cases accepts with
    | align => exact read.anchored
    | anchor => exact fun _ => rfl
    | type | size | label | payload => exact nofun
  anchorLine := by
    rw [accepts.lines_eq, accepts.anchor_eq]
    exact read.anchorLine.snoc
  label := read.label_of_accepts accepts
  empty := read.empty_of_accepts accepts
  bytes := by
    obtain ⟨own, stores, bytes⟩ := accepts.stores fun stage => read.empty (by simp [stage])
    rw [accepts.lines_eq, bytes]
    exact read.bytes.append stores

end OpenObject

end Scan

-----------------------------------------------------------------------------------------
-- Blocks that are open
-----------------------------------------------------------------------------------------

/-- The block that the segment is made of, if it is a complete one. -/
def Segment.block? : Segment → Option Block
  | .unmatched block => some block
  | .resolved block _ => some block
  | _ => none

/-- What becomes of a block is made of it, whether ROM holds it or not. -/
theorem Segment.block?_ofBlock (table : Rom.Table) (block : Block)
    : (Segment.ofBlock table block).block? = some block := by
  simp only [Segment.ofBlock]
  cases block.find table <;> rfl

theorem Segment.eq_of_block?_ofBlock {table : Rom.Table} {own block : Block}
    (made : (Segment.ofBlock table own).block? = some block)
    : own = block := by
  rw [Segment.block?_ofBlock] at made
  exact Option.some.inj made

namespace Scan

variable {table : Rom.Table}

-----------------------------------------------------------------------------------------
-- Between two lines
-----------------------------------------------------------------------------------------

def Mode.literal? : Mode → Option Literal
  | .literal block => some block
  | _ => none

def Mode.object? : Mode → Option FunctionBlock
  | .function block => some block
  | _ => none

/-- A block that is open has lines. -/
theorem Mode.Collected.pending_ne_nil {mode : Mode} (collected : mode.Collected) {name : String}
    (opened : mode.openBlock? = some name)
    : mode.pending ≠ [] := by
  cases mode with
  | outside | rodata | entering => cases opened
  | literal block => exact List.cons_ne_nil _ _
  | function object =>
      obtain ⟨line, others, same, -⟩ := FunctionBlock.Collected.opening collected
      rw [Mode.pending, same]
      exact List.cons_ne_nil _ _

-----------------------------------------------------------------------------------------
-- From one line to the next
-----------------------------------------------------------------------------------------

/-- The block that is open takes the line and stays open. -/
inductive Mode.GoesOn (line : String) : Mode → Mode → Prop
  | literal {block} (bytes : Bytes)
    : GoesOn line (.literal block) (.literal (block.add line bytes))
  | object {block} (stage : FunctionStage)
    : GoesOn line (.function block) (.function (block.add line stage))

/-- The modes between which a line is passed on. Only the section line of an object is passed to the
mode that starts one, and nothing is open in any mode that a line is passed to.
-/
inductive Mode.PassesOn (line : String) : Mode → Mode → Prop
  | functionSection (opens : isFunctionSection line = true) : PassesOn line .outside .entering
  | sectionSwitch : PassesOn line .rodata .outside
  | literalEnds {block} : PassesOn line (.literal block) .rodata
  | objectEnds {block} : PassesOn line (.function block) .outside

/-- A line is passed on between such modes, by cases on the mode that passes it on. -/
theorem passesOn_of_readOnce {number : Nat} {leftAlone : Bool} {line : String} {mode next : Mode}
    {lower : next.rank < mode.rank} {settled : List Segment}
    (read : readOnce table number leftAlone line mode = .ok (.passed next lower settled))
    : mode.PassesOn line next := by
  cases mode with
  | entering => simp [readOnce] at read
  | outside =>
      simp only [readOnce, readOutside] at read
      split at read
      next opens =>
        cases read
        exact .functionSection opens
      next => split at read <;> cases read
  | rodata =>
      simp only [readOnce, readRodata] at read
      split at read
      next =>
        cases read
        exact .sectionSwitch
      next =>
        split at read
        · cases read
        · split at read
          · cases read
          · split at read <;> cases read
  | literal block =>
      simp only [readOnce, readLiteral] at read
      split at read
      next payload _ =>
        cases decoded : payloadBytes number line payload <;> simp [decoded, Except.map] at read
      next =>
        cases read
        exact .literalEnds
  | function block =>
      simp only [readOnce, readFunction] at read
      cases advance : block.stage.advance number line with
      | error fault => simp [advance, Except.map] at read
      | ok means =>
          cases means with
          | accept stage => simp [advance, Except.map] at read
          | complete anchor symbol bytes =>
              simp only [advance, Except.map] at read
              cases read
              exact .objectEnds
          | misfit reason =>
              simp only [advance, Except.map] at read
              cases read
              exact .objectEnds

/-- A line that may change the section and has no form of its own is read outside read-only data,
whatever block is open before it. By cases on the mode, which passes the line on.
-/
theorem exists_takes_of_switch {number : Nat} {leftAlone : Bool} {line : String} {mode : Mode}
    {taken : Taken} (resting : mode ≠ .entering) (switches : isSectionSwitch line = true)
    (formless : Formless line) (next : Takes table number leftAlone line .outside taken)
    : ∃ settled,
        Takes table number leftAlone line mode { taken with settled := settled ++ taken.settled }
        ∧ (mode.openBlock? = none → settled = []) := by
  cases mode with
  | outside => exact ⟨[], next, fun _ => rfl⟩
  | rodata => exact ⟨[], .sectionSwitch switches next, fun _ => rfl⟩
  | literal block =>
      exact ⟨[_], .literalEnds formless.payload (.sectionSwitch switches next), nofun⟩
  | entering => exact absurd rfl resting
  | function block =>
      have ends := FunctionStage.advance_of_formless formless number block.stage
      cases stage : block.stage with
      | filled anchor symbol bytes =>
          exact ⟨[_], .completed (by rw [ends, stage]; rfl) next, nofun⟩
      | opened | anchored _ | typed _ _ | sized _ _ | labelled _ _ =>
          exact ⟨[_], .misfit (by rw [ends, stage]; rfl) next, nofun⟩

/-- The section line of an object opens one, whatever block is open before it. -/
theorem exists_takes_of_functionSection (table : Rom.Table) (number : Nat) (leftAlone : Bool)
    {line : String} {mode : Mode} (resting : mode ≠ .entering)
    (opens : isFunctionSection line = true)
    : ∃ settled,
        Takes table number leftAlone line mode
          { mode := .function (.start number line), leftAlone, settled } := by
  obtain ⟨operands, found⟩ := operandsOf?_of_isFunctionSection opens
  have outside
      : Takes table number leftAlone line .outside
          { mode := .function (.start number line), leftAlone, settled := [] } :=
    .functionSection opens .entering
  obtain ⟨settled, takes, -⟩ :=
    exists_takes_of_switch resting (isSectionSwitch_of_isFunctionSection opens)
      (.of_section found) outside
  exact ⟨_, takes⟩

end Scan

end RomStrings
