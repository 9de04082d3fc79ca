import RomStrings.Proofs.Labels
import RomStrings.Proofs.Scan.Faults
import RomStrings.Proofs.Scan.Holding
import RomStrings.Proofs.Scan.ObjectGrammar
import RomStrings.Scan.Handling

/-!
The registers of a scan against its modes. A mode and a flag stand for the registers of the part and
of what is open, and the segments settled so far for those of what is gathered. A call of a handler
is then one reading of the line, so a scan with registers comes to what the segments of its input
give.
-/

namespace RomStrings

open Assembly

/-- A success has no error to be made another. -/
theorem mapError_ok {ε ε' α : Type} (view : ε → ε') (value : α)
    : (Except.ok value : Except ε α).mapError view = .ok value :=
  rfl

-----------------------------------------------------------------------------------------
-- What registers stand for
-----------------------------------------------------------------------------------------

/-- The latest element of the grammar. -/
def FunctionStage.element : FunctionStage → Scan.Element
  | .opened => .opening
  | .anchored _ => .anchor
  | .typed _ _ => .type
  | .sized _ _ => .size
  | .labelled _ _ => .label
  | .filled _ _ _ => .payload

/-- The literal field by field. -/
def Literal.fields (literal : Literal) : Scan.OpenLiteral :=
  { label := literal.label
    number := literal.number
    lines := literal.lines
    bytes := literal.bytes
    payloadCount := literal.payloads.length }

/-- The object field by field. -/
def FunctionBlock.fields (object : FunctionBlock) : Scan.OpenObject :=
  { number := object.number
    lines := object.lines
    stage := object.stage.element
    symbol := object.stage.symbol?
    anchor := object.stage.anchor?
    bytes := object.stage.bytes }

namespace Scan

/-- The part that the mode reads. -/
def Mode.part : Mode → Part
  | .outside => .outside
  | .rodata | .literal _ => .rodata
  | .entering | .function _ => .object

namespace Registers

/-- The registers of a scan that is in the mode. -/
def inMode (registers : Registers) (mode : Mode) (leftAlone : Bool) : Registers :=
  { registers with
    part := mode.part
    leftAlone
    literal := mode.literal?.map Literal.fields
    object := mode.object?.map FunctionBlock.fields }

/-- The registers with what the segments add to all that is gathered. -/
def settle (options : Options) (registers : Registers) (segments : List Segment) : Registers :=
  { registers with
    output := registers.output ++ Segments.output options.comment segments
    resolution := registers.resolution.insertAll (segments.filterMap Segment.resolution?)
    stats := registers.stats + Segments.stats segments
    notes := registers.notes ++ Segments.notes options.file segments }

variable {table : Rom.Table} {options : Options} {registers : Registers} {leftAlone : Bool}

theorem settle_nil (options : Options) (registers : Registers)
    : registers.settle options [] = registers := by
  simp [settle, Segments.output, Segments.stats, Segments.notes, Resolution.insertAll,
    Stats.add_zero]

theorem settle_append (options : Options) (registers : Registers) (segments later : List Segment)
    : registers.settle options (segments ++ later)
      = (registers.settle options segments).settle options later := by
  simp [settle, output_append, Segments.stats_append, Segments.notes, Stats.add_assoc,
    Resolution.insertAll_append]

theorem settle_singleton (options : Options) (registers : Registers) (segment : Segment)
    : registers.settle options [segment]
      = { registers with
          output := registers.output ++ segment.output options.comment
          resolution := registers.resolution.insertAll segment.resolution?.toList
          stats := registers.stats + segment.stats
          notes := registers.notes ++ (segment.note? options.file).toList } := by
  have counts : Segments.stats [segment] = segment.stats := by
    rw [Segments.stats_cons]
    exact Stats.add_zero _
  have resolved : [segment].filterMap Segment.resolution? = segment.resolution?.toList := by
    cases known : segment.resolution? <;> simp [known]
  have noted : Segments.notes options.file [segment] = (segment.note? options.file).toList := by
    cases known : segment.note? options.file <;> simp [Segments.notes, known]
  simp [settle, counts, resolved, noted, Segments.output]

/-- A block that is written is settled, by cases on whether ROM holds it. -/
theorem emit_eq_settle (table : Rom.Table) (options : Options) (registers : Registers)
    (block : Block)
    : registers.emit options block (block.find table)
      = registers.settle options [Segment.ofBlock table block] := by
  rw [settle_singleton, Segment.ofBlock]
  cases block.find table with
  | none => simp [emit, write, count, note, Segment.output, Segment.source, Segment.resolution?,
      Segment.stats, Segment.note?, Resolution.insertAll]
  | some found => simp [emit, write, note, Segment.output, Segment.resolution?, Segment.stats,
      Stats.record, Segment.note?, Resolution.insertAll]

/-- A line that is written is copied. -/
theorem write_eq_settle (options : Options) (registers : Registers) (line : String)
    : registers.write [line] = registers.settle options [.copied line] := by
  simp [settle_singleton, write, Segment.output, Segment.source, Segment.resolution?,
    Segment.stats, Segment.note?, Resolution.insertAll, Stats.add_zero]

/-- A section's anchor is copied, and keeps the section as it is. -/
theorem keepSection_inMode (options : Options) (registers : Registers) (line : String)
    : { ((registers.inMode .rodata false).keepSection options).write [line] with part := .rodata }
      = (registers.settle options [.anchored registers.number line]).inMode .rodata true := by
  simp [settle_singleton, keepSection, note, count, write, inMode, Mode.part, Segment.output,
    Segment.source, Segment.resolution?, Segment.stats, Segment.note?, Resolution.insertAll]

/-- A literal that ends is settled, as a copy of its label line where it has no payload. -/
theorem finishLiteral_fields (leftAlone : Bool) (literal : Literal)
    : { (registers.inMode (.literal literal) leftAlone).finishLiteral table options
          literal.fields with part := .rodata }
      = (registers.settle options [Segment.ofLiteral table literal]).inMode .rodata leftAlone := by
  simp only [finishLiteral, Segment.ofLiteral]
  by_cases none : literal.payloads = []
  · simp [none, Literal.fields, Literal.lines, write_eq_settle options, inMode, settle, Mode.part,
      Mode.literal?, Mode.object?]
  · have some : literal.fields.payloadCount ≠ 0 := fun zero =>
      none (List.length_eq_zero_iff.mp zero)
    rw [if_neg some, if_neg (by simpa using none)]
    exact congrArg (fun after : Registers => { after with part := .rodata })
      (emit_eq_settle table options _ literal.block)

/-- An object that is complete is settled. Its anchor, if it has one, is no empty name. -/
theorem finishObject_fields (table : Rom.Table) (options : Options) (registers : Registers)
    (leftAlone : Bool) {object : FunctionBlock} {anchor : Option String} {symbol : String}
    {bytes : Bytes} (stage : object.stage = .filled anchor symbol bytes)
    (named : given anchor = anchor)
    : ((registers.inMode (.function object) leftAlone).finishObject table options
          object.fields).map (fun after => { after with part := .outside })
      = .ok
          ((registers.settle options
            [Segment.ofBlock table (object.complete anchor symbol bytes)]).inMode .outside
              leftAlone) := by
  have written :=
    emit_eq_settle table options
      { registers.inMode (.function object) leftAlone with object := none }
      (object.complete anchor symbol bytes)
  simp only [finishObject, FunctionBlock.fields, stage, FunctionStage.symbol?,
    FunctionStage.anchor?, FunctionStage.bytes, named, Except.map]
  exact congrArg (fun after : Registers => Except.ok { after with part := .outside }) written

-----------------------------------------------------------------------------------------
-- One call of a handler
-----------------------------------------------------------------------------------------

/-- What a handler leaves behind where the line is read so. -/
def handledOf (options : Options) (registers : Registers) (leftAlone : Bool) {mode : Mode}
    : Reading mode → Handled
  | .taken next alone settled =>
      { registers := (registers.settle options settled).inMode next alone, again := false }
  | .passed next _ settled =>
      { registers := (registers.settle options settled).inMode next leftAlone, again := true }

theorem rank_outside_lt (object : FunctionBlock)
    : Mode.outside.rank < (Mode.function object).rank :=
  Nat.lt_add_one 1

/-- How a line is read that means this to the grammar of the object. -/
def readingOf (table : Rom.Table) (leftAlone : Bool) (line : String) (object : FunctionBlock)
    : Advance → Reading (.function object)
  | .accept stage => .taken (.function (object.add line stage)) leftAlone []
  | .complete anchor symbol bytes =>
      .passed .outside (rank_outside_lt object)
        [Segment.ofBlock table (object.complete anchor symbol bytes)]
  | .misfit reason => .passed .outside (rank_outside_lt object) [.aborted object reason]

theorem readFunction_eq (table : Rom.Table) (number : Nat) (leftAlone : Bool) (line : String)
    (object : FunctionBlock)
    : readFunction table number leftAlone line object
      = (object.stage.advance number line).map (readingOf table leftAlone line object) := by
  refine congrArg (Except.map · (object.stage.advance number line)) (funext fun means => ?_)
  cases means <;> rfl

section Grammar

variable {line : String} {object : FunctionBlock}

/-- Fields that are those of the object with the line are what the grammar leads on to. -/
theorem accept_fields (table : Rom.Table) {more : OpenObject} {element : Element}
    {stage : FunctionStage} (same : more.add line element = (object.add line stage).fields)
    : (registers.inMode (.function object) leftAlone).accept more line element
      = handledOf options registers leftAlone
          (readingOf table leftAlone line object (.accept stage)) := by
  rw [readingOf, handledOf, settle_nil, accept, same]
  rfl

/-- An object that does not fit is settled as it is. -/
theorem misfit_fields (table : Rom.Table) (reason : Misfit)
    : (registers.inMode (.function object) leftAlone).abort options object.fields reason
      = handledOf options registers leftAlone
          (readingOf table leftAlone line object (.misfit reason)) := by
  simp [readingOf, handledOf, abort, note, count, write, settle_singleton, inMode, Mode.part,
    Mode.literal?, Mode.object?, FunctionBlock.fields, Segment.output, Segment.source,
    Segment.resolution?, Segment.stats, Segment.note?, Resolution.insertAll]

theorem expectType_fields (table : Rom.Table) {anchor : Option String}
    (known : object.stage.anchor? = anchor) (empty : object.stage.bytes = [])
    : expectType options line (registers.inMode (.function object) leftAlone) object.fields
      = handledOf options registers leftAlone
          (readingOf table leftAlone line object (FunctionStage.expectType anchor line)) := by
  simp only [expectType, FunctionStage.expectType]
  cases typeOf? line with
  | none => exact misfit_fields table _
  | some found =>
      obtain ⟨symbol, kind⟩ := found
      by_cases named : kind = "object"
      · simp only [named, if_true]
        refine accept_fields table ?_
        simp only [OpenObject.add, FunctionBlock.fields, FunctionBlock.add, known, empty]
        rfl
      · simp only [named, if_false]
        exact misfit_fields table _

theorem expectLabel_fields (table : Rom.Table) {anchor : Option String} {symbol : String}
    (named : object.stage.symbol? = some symbol) (known : object.stage.anchor? = anchor)
    (empty : object.stage.bytes = [])
    : expectLabel options line (registers.inMode (.function object) leftAlone) object.fields
      = handledOf options registers leftAlone
          (readingOf table leftAlone line object
            (FunctionStage.expectLabel anchor symbol line)) := by
  have same : object.fields.symbol = some symbol := named
  have labelled
      : ((label? line).any fun label => some label = some symbol) = true
        ↔ label? line = some symbol := by
    cases label? line <;> simp
  simp only [expectLabel, FunctionStage.expectLabel, same, labelled]
  split
  next =>
    refine accept_fields table ?_
    simp only [OpenObject.add, FunctionBlock.fields, FunctionBlock.add, named, known, empty]
    rfl
  next => exact misfit_fields table _

theorem expectPayload_fields (table : Rom.Table) {anchor : Option String} {symbol : String}
    (stage : object.stage = .labelled anchor symbol)
    : expectPayload options line (registers.inMode (.function object) leftAlone) object.fields
      = ((object.stage.advance registers.number line).mapError Halt.fault).map fun means =>
          handledOf options registers leftAlone (readingOf table leftAlone line object means) := by
  simp only [expectPayload, FunctionStage.advance, stage]
  cases payload? line with
  | none => exact congrArg Except.ok (misfit_fields table _)
  | some payload =>
      simp only [decode]
      have number : (registers.inMode (.function object) leftAlone).number = registers.number := rfl
      rw [number]
      cases payloadBytes registers.number line payload with
      | error fault => rfl
      | ok bytes =>
          refine congrArg Except.ok (accept_fields table ?_)
          simp only [OpenObject.add, FunctionBlock.fields, FunctionBlock.add, stage]
          rfl

/-- Up to its label an object goes on as its grammar does, by cases on the stage. An alignment
leaves every such stage as it is.
-/
theorem goOn_fields (table : Rom.Table) (early : object.stage.label? = none)
    : .ok (goOn options line (registers.inMode (.function object) leftAlone) object.fields)
      = ((object.stage.advance registers.number line).mapError Halt.fault).map fun means =>
          handledOf options registers leftAlone
            (readingOf table leftAlone line object means) := by
  have element : object.fields.stage = object.stage.element := rfl
  cases aligns : isAlign line with
  | true =>
      have advances
          : object.stage.advance registers.number line = .ok (.accept object.stage) := by
        cases stage : object.stage with
        | opened | anchored _ | typed _ _ | sized _ _ =>
            simp [FunctionStage.advance, FunctionStage.alignedOr, aligns]
        | labelled _ _ | filled _ _ _ => simp [stage, FunctionStage.label?] at early
      simp only [goOn, aligns, if_true, advances]
      exact congrArg Except.ok (accept_fields table rfl)
  | false =>
      cases stage : object.stage with
      | labelled _ _ | filled _ _ _ => simp [stage, FunctionStage.label?] at early
      | opened =>
          simp only [goOn, aligns, element, stage, FunctionStage.advance, FunctionStage.alignedOr]
          refine congrArg Except.ok ?_
          cases anchorDefinition? line with
          | some anchor =>
              refine accept_fields table ?_
              simp only [OpenObject.add, FunctionBlock.fields, FunctionBlock.add, stage]
              rfl
          | none => exact expectType_fields table (by rw [stage]; rfl) (by rw [stage]; rfl)
      | anchored anchor =>
          simp only [goOn, aligns, element, stage, FunctionStage.advance, FunctionStage.alignedOr]
          refine congrArg Except.ok ?_
          exact expectType_fields table (by rw [stage]; rfl) (by rw [stage]; rfl)
      | typed anchor symbol =>
          have named : object.stage.symbol? = some symbol := by rw [stage]; rfl
          have sized
              : ((sizeOf? line).any fun size => some size.1 = object.fields.symbol)
                = FunctionStage.isSizeOf symbol line := by
            simp only [FunctionBlock.fields, named, FunctionStage.isSizeOf, Option.some.injEq]
          simp only [goOn, aligns, element, stage, sized, FunctionStage.advance,
            FunctionStage.alignedOr]
          refine congrArg Except.ok ?_
          cases FunctionStage.isSizeOf symbol line with
          | true =>
              refine accept_fields table ?_
              simp only [OpenObject.add, FunctionBlock.fields, FunctionBlock.add, stage]
              rfl
          | false => exact expectLabel_fields table named (by rw [stage]; rfl) (by rw [stage]; rfl)
      | sized anchor symbol =>
          simp only [goOn, aligns, element, stage, FunctionStage.advance, FunctionStage.alignedOr]
          refine congrArg Except.ok ?_
          exact expectLabel_fields table (by rw [stage]; rfl) (by rw [stage]; rfl)
            (by rw [stage]; rfl)

/-- In an object the handler does what a reading of the line does, by cases on the stage. -/
theorem handleObject_fields (table : Rom.Table)
    (named : given object.stage.anchor? = object.stage.anchor?)
    : handleObject table options line (registers.inMode (.function object) leftAlone)
      = ((readFunction table registers.number leftAlone line object).mapError Halt.fault).map
          (handledOf options registers leftAlone) := by
  have whole
      : ((readFunction table registers.number leftAlone line object).mapError Halt.fault).map
          (handledOf options registers leftAlone)
        = ((object.stage.advance registers.number line).mapError Halt.fault).map fun means =>
            handledOf options registers leftAlone
              (readingOf table leftAlone line object means) := by
    rw [readFunction_eq]
    cases object.stage.advance registers.number line <;> rfl
  have opened : (registers.inMode (.function object) leftAlone).object = some object.fields := rfl
  have element : object.fields.stage = object.stage.element := rfl
  rw [whole]
  simp only [handleObject, opened, element]
  cases stage : object.stage with
  | opened | anchored _ | typed _ _ | sized _ _ =>
      simp only [FunctionStage.element]
      rw [← stage]
      exact goOn_fields table (by rw [stage]; rfl)
  | labelled anchor symbol =>
      simp only [FunctionStage.element]
      rw [← stage]
      exact expectPayload_fields table stage
  | filled anchor symbol bytes =>
      simp only [FunctionStage.element, FunctionStage.advance]
      split
      next => exact congrArg Except.ok (misfit_fields table _)
      next =>
        rw [stage] at named
        have finished := finishObject_fields table options registers leftAlone stage named
        cases done : (registers.inMode (.function object) leftAlone).finishObject table options
            object.fields with
        | error halt => simp [done, Except.map] at finished
        | ok after =>
            simp only [done, Except.map, Except.ok.injEq] at finished
            simp only [Except.map, finished]
            rfl

end Grammar

-----------------------------------------------------------------------------------------
-- From handlers to lines
-----------------------------------------------------------------------------------------

/-- What is read as a symbol counts as given, since it is not empty. -/
theorem given_of_isSymbol {symbol : String} (isSymbol : IsSymbol symbol)
    : given (some symbol) = some symbol := by
  obtain ⟨c, rest, whole, -⟩ := isSymbol
  have some : symbol ≠ "" := by
    rintro rfl
    cases whole
  simp [given, Option.filter, some]

/-- The anchor of an object was read off one of its lines. -/
theorem given_anchor {object : FunctionBlock} (collected : object.Collected)
    : given object.stage.anchor? = object.stage.anchor? := by
  cases known : object.stage.anchor? with
  | none => rfl
  | some anchor =>
      obtain ⟨line, -, defines⟩ := collected.anchor known
      exact given_of_isSymbol (isSymbol_of_anchorDefinition? defines)

/-- Outside read-only data the handler does what a reading of the line does. -/
theorem handleOutside_inMode (options : Options) (registers : Registers) (leftAlone : Bool)
    (line : String)
    : handleOutside line (registers.inMode .outside leftAlone)
      = handledOf options registers leftAlone (readOutside leftAlone line) := by
  simp only [handleOutside, readOutside]
  split
  next =>
    simp only [handledOf, settle_nil]
    rfl
  next =>
    split
    all_goals
      simp only [handledOf, ← write_eq_settle]
      rfl

/-- In read-only data with no literal open, it does so by cases on the forms of the line. -/
theorem handleRodata_inMode (table : Rom.Table) (options : Options) (registers : Registers)
    (leftAlone : Bool) (line : String)
    : handleRodata table options line (registers.inMode .rodata leftAlone)
      = .ok
          (handledOf options registers leftAlone
            (readRodata registers.number leftAlone line)) := by
  have closed : (registers.inMode .rodata leftAlone).literal = none := rfl
  have alone : (registers.inMode .rodata leftAlone).leftAlone = leftAlone := rfl
  simp only [handleRodata, readRodata, closed, alone]
  cases isSectionSwitch line with
  | true =>
      simp only [if_true, handledOf, settle_nil]
      rfl
  | false =>
      cases leftAlone with
      | true =>
          simp only [Bool.false_eq_true, if_false, if_true, handledOf, ← write_eq_settle]
          rfl
      | false =>
          cases isAnchor line with
          | true =>
              exact congrArg Except.ok
                (congrArg (Handled.mk · false) (keepSection_inMode options registers line))
          | false =>
              cases label? line with
              | some label =>
                  simp only [Bool.false_eq_true, if_false, handledOf, settle_nil]
                  rfl
              | none =>
                  simp only [Bool.false_eq_true, if_false, handledOf, ← write_eq_settle]
                  rfl

/-- With a literal open, it takes payload that reads and ends the literal at any other line. -/
theorem handleRodata_literal (table : Rom.Table) (options : Options) (registers : Registers)
    (leftAlone : Bool) (line : String) (literal : Literal)
    : handleRodata table options line (registers.inMode (.literal literal) leftAlone)
      = ((readLiteral table registers.number leftAlone line literal).mapError Halt.fault).map
          (handledOf options registers leftAlone) := by
  have opened
      : (registers.inMode (.literal literal) leftAlone).literal = some literal.fields := rfl
  have number : (registers.inMode (.literal literal) leftAlone).number = registers.number := rfl
  have more (bytes : Bytes) : literal.fields.add line bytes = (literal.add line bytes).fields := by
    simp [OpenLiteral.add, Literal.fields, Literal.add, Literal.lines, Literal.bytes]
  simp only [handleRodata, readLiteral, opened, decode, number]
  cases payload? line with
  | some payload =>
      dsimp only
      cases payloadBytes registers.number line payload with
      | error fault => rfl
      | ok bytes =>
          simp only [mapError_ok, Except.map, handledOf, settle_nil, more]
          rfl
  | none => exact congrArg Except.ok (congrArg (Handled.mk · true) (finishLiteral_fields _ _))

/-- A handler does what a reading of the line does, by cases on the mode. -/
theorem handle_inMode (table : Rom.Table) (options : Options) (registers : Registers)
    (leftAlone : Bool) (line : String) {mode : Mode} (collected : mode.Collected)
    : (registers.inMode mode leftAlone).handle table options line
      = ((readOnce table registers.number leftAlone line mode).mapError Halt.fault).map
          (handledOf options registers leftAlone) := by
  cases mode with
  | outside => exact congrArg Except.ok (handleOutside_inMode options registers leftAlone line)
  | rodata => exact handleRodata_inMode table options registers leftAlone line
  | literal literal => exact handleRodata_literal table options registers leftAlone line literal
  | entering =>
      simp only [readOnce, mapError_ok, Except.map, handledOf, settle_nil]
      rfl
  | function object => exact handleObject_fields table (given_anchor collected)

/-- The handlers called for a line do what taking the line does, by induction on its readings. -/
theorem finishLine_inMode (table : Rom.Table) (options : Options) (registers : Registers)
    (leftAlone : Bool) (line : String) {mode : Mode} (collected : mode.Collected)
    : (registers.inMode mode leftAlone).finishLine table options line
      = ((takeLine table registers.number leftAlone line mode).mapError Halt.fault).map fun taken =>
          (registers.settle options taken.settled).inMode taken.mode taken.leftAlone := by
  generalize known : registers.number = number
  fun_induction takeLine table number leftAlone line mode generalizing registers with
  | case1 mode fault read =>
      have handled := handle_inMode table options registers leftAlone line collected
      rw [known, read] at handled
      rw [finishLine_eq, handled]
      rfl
  | case2 mode next alone settled read =>
      have handled := handle_inMode table options registers leftAlone line collected
      rw [known, read] at handled
      rw [finishLine_eq, handled]
      rfl
  | case3 mode next lower settled read ih =>
      have handled := handle_inMode table options registers leftAlone line collected
      rw [known, read] at handled
      have closed : next.Collected := by
        cases passesOn_of_readOnce read <;> trivial
      have later := ih (registers.settle options settled) closed known
      rw [finishLine_eq, handled]
      simp only [mapError_ok, Except.map, handledOf, if_true]
      rw [later]
      cases takeLine table number leftAlone line next with
      | error fault => rfl
      | ok taken => simp [mapError_ok, Except.map, settle_append]

-----------------------------------------------------------------------------------------
-- From lines to scans
-----------------------------------------------------------------------------------------

/-- A line that a scanner takes leads to the registers of where it stands then. -/
theorem finishLine_of_feed {scanner : Scanner} {line : String} {step : Step}
    (fed : scanner.feed table line = .ok step) (collected : scanner.mode.Collected)
    (number : registers.number = scanner.linesRead)
    : ((registers.inMode scanner.mode scanner.leftAlone).next line).finishLine table options line
      = .ok
          (((registers.next line).settle options step.settled).inMode step.after.mode
            step.after.leftAlone) := by
  obtain ⟨takes, -, -⟩ := feed_eq_ok_iff.mp fed
  have read : (registers.next line).number = scanner.linesRead + 1 := congrArg (· + 1) number
  have handled := finishLine_inMode table options (registers.next line) scanner.leftAlone line
    collected
  rw [read, takes.takeLine] at handled
  exact handled

/-- A line at fault breaks off the scan. -/
theorem finishLine_of_fault (options : Options) (registers : Registers) {scanner : Scanner}
    {line : String} {fault : Error}
    (fails : scanner.feed table line = .error fault) (collected : scanner.mode.Collected)
    (number : registers.number = scanner.linesRead)
    : ((registers.inMode scanner.mode scanner.leftAlone).next line).finishLine table options line
      = .error (.fault fault) := by
  have read : (registers.next line).number = scanner.linesRead + 1 := congrArg (· + 1) number
  have handled := finishLine_inMode table options (registers.next line) scanner.leftAlone line
    collected
  have taken
      : takeLine table (scanner.linesRead + 1) scanner.leftAlone line scanner.mode
        = .error fault :=
    takeLine_eq_error_iff.mpr (feed_eq_error_iff.mp fails)
  rw [read, taken] at handled
  exact handled

/-- A run leads to the registers of where it stands at the end, with all that it settles, by
induction on it.
-/
theorem readAll_of_reads (options : Options) (registers : Registers) {seen lines : List String}
    {scanner last : Scanner} {settled : List Segment} (run : Reads table scanner lines settled last)
    (stands : Stands seen scanner.mode scanner.leftAlone)
    (number : registers.number = scanner.linesRead)
    : (registers.inMode scanner.mode scanner.leftAlone).readAll table options lines
      = .ok
          (({ registers with
              number := last.linesRead
              line := lines.getLastD registers.line }.settle options settled).inMode last.mode
            last.leftAlone) := by
  induction run generalizing registers seen with
  | nil =>
      rw [settle_nil, ← number]
      rfl
  | @cons scanner line step lines settled last fed rest ih =>
      obtain ⟨takes, read, -⟩ := feed_eq_ok_iff.mp fed
      have later := ih ((registers.next line).settle options step.settled)
        (stands.takes takes) (by rw [read, ← number]; rfl)
      simp only [readAll, finishLine_of_feed fed stands.collected number, later]
      rw [List.getLastD_cons, settle_append]
      rfl

theorem readAll_append (table : Rom.Table) (options : Options) (registers : Registers)
    (lines more : List String)
    : registers.readAll table options (lines ++ more)
      = (registers.readAll table options lines).bind fun middle =>
          middle.readAll table options more := by
  induction lines generalizing registers with
  | nil => rfl
  | cons line rest ih =>
      simp only [List.cons_append, readAll]
      cases (registers.next line).finishLine table options line with
      | error halt => rfl
      | ok after => exact ih after

/-- Nothing is left in the registers behind a reset. -/
theorem reset_eq (registers : Registers) : registers.reset = inMode {} .outside false := rfl

/-- The registers behind the lines are those of where the scan of the lines stands, with all that
it settles, and a line at fault breaks off both.
-/
theorem readAll_reset (table : Rom.Table) (options : Options) (registers : Registers)
    (lines : List String)
    : registers.reset.readAll table options lines
      = match (history table lines).course.fault with
        | some fault => .error (.fault fault)
        | none =>
            .ok
              ((settle options
                  { number := lines.length, line := lines.getLastD "" }
                  (history table lines).segments).inMode
                (history table lines).last.mode (history table lines).last.leftAlone) := by
  cases clean : (history table lines).course.fault with
  | some fault =>
      have failed : Scan.segments table lines = .error fault := by
        rw [Scan.segments, History.outcome, clean]
      rw [segments_eq_finish] at failed
      cases fails_of_finish failed with
      | @line before own after settled middle _ whole run fails =>
          have front := readAll_of_reads options {} run stands_start rfl
          have collected := (stands_start.reads run).collected
          have breaksOff := finishLine_of_fault options
            (settle options { number := middle.linesRead, line := before.getLastD "" } settled)
            fails collected rfl
          rw [whole, readAll_append, reset_eq, front]
          simp only [Except.bind, readAll]
          rw [breaksOff]
      | atEnd run _ =>
          obtain ⟨faultless, -⟩ := run.course
          have same : none = some _ := faultless.symm.trans clean
          cases same
  | none =>
      obtain ⟨settled, last, run⟩ := reads_of_course clean
      obtain ⟨-, segments, stand⟩ := run.course
      have count : last.linesRead = lines.length := by rw [run.linesRead]; exact Nat.zero_add _
      have settles : (history table lines).segments = settled := segments
      have stands : (history table lines).last = last := stand
      have whole := readAll_of_reads options {} run stands_start rfl
      rw [settles, stands, ← count, reset_eq]
      exact whole

-----------------------------------------------------------------------------------------
-- What is open
-----------------------------------------------------------------------------------------

theorem element_of_unlabelled {stage : FunctionStage} (unlabelled : stage.label? = none)
    : stage.element ≠ .label ∧ stage.element ≠ .payload := by
  cases stage <;> simp_all [FunctionStage.label?, FunctionStage.element]

/-- The fields of an object take the lines that the object takes, by cases on the rules. -/
theorem accepts_of_advance {object : FunctionBlock} {number : Nat} {line : String}
    {next : FunctionStage} (advances : object.stage.advance number line = .ok (.accept next))
    : object.fields.Accepts line (object.add line next).fields := by
  obtain ⟨start, lines, stage⟩ := object
  cases FunctionStage.fits_of_advance advances with
  | align aligns =>
      obtain ⟨-, unlabelled⟩ := FunctionStage.advance_of_isAlign aligns advances
      exact .align (element_of_unlabelled unlabelled) aligns
  | anchor defines => exact .anchor rfl defines
  | typeFirst types => exact .type (.inl rfl) types
  | type types => exact .type (.inr rfl) types
  | size sizes =>
      obtain ⟨size, sizes, named⟩ := (Option.any_eq_true _ _).mp sizes
      exact .size rfl sizes (congrArg some (of_decide_eq_true named).symm)
  | labelFirst labels => exact .label (.inl rfl) labels rfl
  | label labels => exact .label (.inr rfl) labels rfl
  | payload stores decodes => exact .payload rfl stores decodes

end Registers

/-- An object that a scan collects has all its fields on its lines, by induction on them. -/
theorem readOffLines_object {object : FunctionBlock} (collected : object.Collected)
    : object.fields.ReadOffLines := by
  induction collected with
  | start opens => exact OpenObject.readOffLines_opening _ opens
  | add _ accepts ih => exact ih.accepts (Registers.accepts_of_advance accepts)

-----------------------------------------------------------------------------------------
-- A whole scan
-----------------------------------------------------------------------------------------

namespace Registers

/-- What messages call the block that is open, its registers do as well. -/
theorem openBlock?_inMode (registers : Registers) (leftAlone : Bool) {mode : Mode}
    (collected : mode.Collected)
    : (registers.inMode mode leftAlone).openBlock? = mode.openBlock? := by
  cases mode with
  | outside | rodata | entering | literal _ => rfl
  | function object =>
      have name : object.fields.name = object.name := by
        have read := (readOffLines_object collected).symbolLine
        simp only [OpenObject.name, FunctionBlock.name, FunctionBlock.fields] at read ⊢
        cases known : object.stage.symbol? with
        | none => rfl
        | some symbol =>
            rw [known] at read
            obtain ⟨line, -, names⟩ := read
            rw [given_of_isSymbol (isSymbol_of_objectOf? names)]
      exact congrArg some name

/-- What the registers have gathered. -/
def gathered (registers : Registers) : Replacement × List Note :=
  ({ lines := registers.output, resolution := registers.resolution, stats := registers.stats },
    registers.notes)

/-- Whatever the registers hold, a scan gathers what the segments of its input give, and it breaks
off where they do.
-/
theorem scan_eq (table : Rom.Table) (options : Options) (registers : Registers)
    (lines : List String)
    : (registers.scan table options lines).map gathered
      = ((Scan.segments table lines).mapError Halt.fault).map fun segments =>
          (Replacement.scanned options.comment segments,
            Segments.notes options.file segments) := by
  rw [scan, readAll_reset, Scan.segments, History.outcome]
  cases clean : (history table lines).course.fault with
  | some fault => rfl
  | none =>
      obtain ⟨settled, last, run⟩ := reads_of_course clean
      obtain ⟨-, -, stand⟩ := run.course
      have stands : (history table lines).last = last := stand
      have collected : (history table lines).last.mode.Collected := by
        rw [stands]
        exact (stands_start.reads run).collected
      simp only [Except.bind, close, openBlock?_inMode _ _ collected]
      cases (history table lines).last.mode.openBlock? with
      | some block => rfl
      | none =>
          simp only [mapError_ok, Except.map, gathered, inMode, settle, List.nil_append,
            Stats.zero_add]
          rfl

end Registers

end Scan

end RomStrings
