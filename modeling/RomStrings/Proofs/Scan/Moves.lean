import RomStrings.Proofs.Scan.OpenBlocks

/-!
The moves of a scan: each line with what was open before it and what is open behind it. The blocks
that are opened, completed and given up can be read off them, and the segments that a scan settles
are made of just these blocks, in order.
-/

namespace RomStrings

open Assembly

/-- The block is a literal. -/
def Block.isLiteral (block : Block) : Bool :=
  decide (block.kind = .literal)

def Segment.isAborted : Segment → Bool
  | .aborted _ _ => true
  | _ => false

/-- The segments that are made of complete blocks are what becomes of these in the table. -/
def MadeOfBlocks (table : Rom.Table) (segments : List Segment) : Prop :=
  ∀ segment ∈ segments, ∀ block,
    segment.block? = some block → segment = Segment.ofBlock table block

namespace Scan

variable {table : Rom.Table} {number : Nat} {leftAlone : Bool} {line : String}

-----------------------------------------------------------------------------------------
-- Moves
-----------------------------------------------------------------------------------------

/-- A line with what a scan is in the middle of before it and behind it. -/
structure Move where
  before : Mode
  line : String
  after : Mode

/-- The moves through lines that are taken by the steps. -/
def movesFrom : Mode → List String → List Step → List Move
  | before, line :: lines, step :: steps =>
      { before, line, after := step.after.mode } :: movesFrom step.after.mode lines steps
  | _, _, _ => []

def History.moves (history : History) : List Move :=
  movesFrom .outside history.lines history.course.steps

/-- The complete block that is open, if the line does not belong to it: a literal with a payload, or
an object that has its payload, where the line is no second one.
-/
def Mode.complete? (line : String) : Mode → Option Block
  | .literal block => if block.payloads.isEmpty then none else some block.block
  | .function object =>
      match object.stage with
      | .filled anchor symbol bytes =>
          if isPayload line then none else some (object.complete anchor symbol bytes)
      | _ => none
  | _ => none

namespace Move

/-- The line is added to what is open before it. -/
def goesOn (move : Move) : Bool :=
  decide (move.after.pending = move.before.pending ++ [move.line])

/-- The block that ends before the line and is complete. -/
def completes? (move : Move) : Option Block :=
  if move.goesOn then none else move.before.complete? move.line

/-- An object ends before the line and is not complete. -/
def givesUp (move : Move) : Bool :=
  move.before.object?.isSome && !move.goesOn && move.completes?.isNone

/-- An object begins with the line. -/
def opensObject (move : Move) : Bool :=
  move.after.object?.isSome && decide (move.after.pending = [move.line])

end Move

/-- The complete blocks that a scan goes through. -/
def History.blocks (history : History) : List Block :=
  history.moves.filterMap Move.completes?

-----------------------------------------------------------------------------------------
-- One line
-----------------------------------------------------------------------------------------

/-- The segments are lines that no block is made of. -/
def NoBlocks (settled : List Segment) : Prop :=
  ∀ segment ∈ settled, segment.block? = none ∧ segment.isAborted = false

/-- What becomes of the block that a line ends: it is complete, it is an object that is given up, or
it is the label of something else.
-/
inductive Ends (table : Rom.Table) (line : String) : Mode → Segment → Prop
  | complete {before block} (complete : before.complete? line = some block)
    : Ends table line before (Segment.ofBlock table block)
  | givenUp {object reason} (incomplete : (Mode.function object).complete? line = none)
    : Ends table line (.function object) (.aborted object reason)
  | bare {literal} (incomplete : (Mode.literal literal).complete? line = none)
    : Ends table line (.literal literal) (.copied literal.labelLine)

/-- What a line does to the block that is open: there is none, the line is added to it, or it is
settled before anything else.
-/
inductive Turns (table : Rom.Table) (line : String) (before : Mode) (taken : Taken) : Prop
  | closed (none : before.openBlock? = none) (plain : NoBlocks taken.settled)
  | goesOn (more : before.GoesOn line taken.mode) (nothing : taken.settled = [])
  | ends {segment rest} (ends : Ends table line before segment) (plain : NoBlocks rest)
    (settles : taken.settled = segment :: rest)

/-- Where no block is open, none is settled, by induction on the rules. -/
theorem Takes.noBlocks {mode : Mode} {taken : Taken}
    (takes : Takes table number leftAlone line mode taken) (none : mode.openBlock? = none)
    : NoBlocks taken.settled := by
  induction takes with
  | entering | label _ _ _ _ => exact List.forall_mem_nil _
  | rodataSection _ _ | outside _ _ | leftAlone _ _ | anchor _ _ _ | other _ _ _ _ =>
      exact List.forall_mem_singleton.mpr ⟨rfl, rfl⟩
  | functionSection _ _ ih | sectionSwitch _ _ ih => exact ih rfl
  | payload _ _ | literalEnds _ _ _ | accepted _ | completed _ _ _ | misfit _ _ _ => cases none

theorem isAborted_ofBlock (table : Rom.Table) (block : Block)
    : (Segment.ofBlock table block).isAborted = false := by
  simp only [Segment.ofBlock]
  cases block.find table <;> rfl

theorem ends_literal (literal : Literal) (line : String)
    : Ends table line (.literal literal) (Segment.ofLiteral table literal) := by
  cases bare : literal.payloads.isEmpty with
  | true =>
      rw [Segment.ofLiteral, if_pos bare]
      exact .bare (by simp [Mode.complete?, bare])
  | false =>
      rw [Segment.ofLiteral, if_neg (by simp [bare])]
      exact .complete (by simp [Mode.complete?, bare])

/-- A line ends what is open or is added to it, by cases on the rules. -/
theorem Takes.turns {mode : Mode} {taken : Taken}
    (takes : Takes table number leftAlone line mode taken)
    : Turns table line mode taken := by
  have closed (none : mode.openBlock? = none) : Turns table line mode taken :=
    .closed none (takes.noBlocks none)
  cases takes with
  | entering | functionSection _ _ | rodataSection _ _ | outside _ _ | sectionSwitch _ _
    | leftAlone _ _ | anchor _ _ _ | label _ _ _ _ | other _ _ _ _ => exact closed rfl
  | payload _ _ => exact .goesOn (.literal _) rfl
  | accepted _ => exact .goesOn (.object _) rfl
  | literalEnds _ next => exact .ends (ends_literal _ _) (next.noBlocks rfl) rfl
  | completed ends next =>
      obtain ⟨stage, plain⟩ := FunctionStage.eq_filled_of_complete ends
      exact .ends (.complete (by simp [Mode.complete?, stage, isPayload, plain]))
        (next.noBlocks rfl) rfl
  | @misfit object reason _ ends next =>
      refine .ends (.givenUp ?_) (next.noBlocks rfl) rfl
      cases stage : object.stage with
      | opened | anchored _ | typed _ _ | sized _ _ | labelled _ _ =>
          simp [Mode.complete?, stage]
      | filled anchor symbol bytes =>
          cases stores : payload? line with
          | some payload => simp [Mode.complete?, stage, isPayload, stores]
          | none => simp [stage, FunctionStage.advance, stores] at ends

/-- The segments that are settled along the moves are made of the blocks that these complete and give
up, in order, and every object that is opened is one of them, unless it is open still.
-/
structure Settles (table : Rom.Table) (before : Mode) (moves : List Move) (after : Mode)
    (settled : List Segment)
    : Prop where
  blocks : settled.filterMap Segment.block? = moves.filterMap Move.completes?
  aborted : settled.countP Segment.isAborted = moves.countP Move.givesUp
  objects
    : moves.countP Move.opensObject + before.object?.isSome.toNat
      = (moves.filterMap Move.completes?).countP (fun block => !block.isLiteral)
        + moves.countP Move.givesUp + after.object?.isSome.toNat
  made : MadeOfBlocks table settled

theorem Settles.nil (mode : Mode) : Settles table mode [] mode [] :=
  { blocks := rfl, aborted := rfl, objects := by simp, made := List.forall_mem_nil _ }

theorem Settles.append {before middle after : Mode} {moves more : List Move}
    {settled later : List Segment} (first : Settles table before moves middle settled)
    (second : Settles table middle more after later)
    : Settles table before (moves ++ more) after (settled ++ later) where
  blocks := by rw [List.filterMap_append, List.filterMap_append, first.blocks, second.blocks]
  aborted := by rw [List.countP_append, List.countP_append, first.aborted, second.aborted]
  objects := by
    have one := first.objects
    have two := second.objects
    rw [List.countP_append, List.countP_append, List.filterMap_append, List.countP_append]
    omega
  made := by
    intro segment member
    rcases List.mem_append.mp member with member | member
    · exact first.made segment member
    · exact second.made segment member

theorem NoBlocks.blocks {settled : List Segment} (plain : NoBlocks settled)
    : settled.filterMap Segment.block? = [] :=
  List.filterMap_eq_nil_iff.mpr fun segment member => (plain segment member).1

theorem NoBlocks.aborted {settled : List Segment} (plain : NoBlocks settled)
    : settled.countP Segment.isAborted = 0 :=
  List.countP_eq_zero.mpr fun segment member => by simp [(plain segment member).2]

theorem NoBlocks.made {settled : List Segment} (plain : NoBlocks settled)
    : MadeOfBlocks table settled := by
  intro segment member block made
  rw [(plain segment member).1] at made
  cases made

/-- A complete block is a literal with payload, or an object that has come to its last stage. -/
inductive IsComplete : Mode → Block → Prop
  | literal {literal} (payloads : literal.payloads ≠ [])
    : IsComplete (.literal literal) literal.block
  | object {object anchor symbol bytes} (stage : object.stage = .filled anchor symbol bytes)
    : IsComplete (.function object) (object.complete anchor symbol bytes)

theorem isComplete_of_complete? {mode : Mode} {block : Block}
    (complete : mode.complete? line = some block)
    : IsComplete mode block := by
  cases mode with
  | outside | rodata | entering => cases complete
  | literal literal =>
      simp only [Mode.complete?] at complete
      split at complete
      next => cases complete
      next payloads =>
        cases complete
        exact .literal (by simpa using payloads)
  | function object =>
      cases stage : object.stage with
      | opened | anchored _ | typed _ _ | sized _ _ | labelled _ _ =>
          simp [Mode.complete?, stage] at complete
      | filled anchor symbol bytes =>
          simp only [Mode.complete?, stage] at complete
          split at complete
          next => cases complete
          next =>
            cases complete
            exact .object stage

theorem IsComplete.lines {mode : Mode} {block : Block} (complete : IsComplete mode block)
    : block.lines = mode.pending := by
  cases complete <;> rfl

theorem IsComplete.kind {mode : Mode} {block : Block} (complete : IsComplete mode block)
    : mode.object?.isSome = !block.isLiteral := by
  cases complete <;> rfl

/-- A complete block stores what its lines store. -/
theorem IsComplete.stored {mode : Mode} {block : Block} (complete : IsComplete mode block)
    (collected : mode.Collected)
    : Stores block.lines block.bytes := by
  cases complete with
  | literal _ => exact Literal.Collected.stored collected
  | object stage =>
      have stored := FunctionBlock.Collected.stored collected
      rw [stage] at stored
      exact stored

/-- What a line ends is settled whole. -/
theorem Ends.source {before : Mode} {segment : Segment} (ends : Ends table line before segment)
    : segment.source = before.pending := by
  cases ends with
  | complete complete => rw [source_ofBlock, (isComplete_of_complete? complete).lines]
  | givenUp _ => rfl
  | @bare literal incomplete =>
      have none : literal.payloads = [] := by simpa [Mode.complete?] using incomplete
      simp [Segment.source, Mode.pending, Literal.lines, none]

/-- Behind a line that ends what is open, only that line is left, so it was not added. -/
theorem Ends.not_goesOn {before after : Mode} {segment : Segment} {rest : List Segment}
    (ends : Ends table line before segment) (collected : before.Collected)
    (source : Segments.source rest ++ after.pending = [line])
    : Move.goesOn { before, line, after } = false := by
  have lines : before.pending ≠ [] := by
    cases before with
    | outside | rodata | entering => cases ends with | complete complete => cases complete
    | literal _ | function _ => exact collected.pending_ne_nil rfl
  have positive := List.length_pos_iff.mpr lines
  have length := congrArg List.length source
  refine decide_eq_false fun same => ?_
  rw [same] at length
  simp only [List.length_append, List.length_singleton] at length
  omega

/-- Where only the line is left to be settled, it begins the object that is open behind it. -/
theorem opensObject_of_source {before after : Mode} {rest : List Segment}
    (source : Segments.source rest ++ after.pending = [line]) (collected : after.Collected)
    : Move.opensObject { before, line, after } = after.object?.isSome := by
  cases after with
  | outside | rodata | entering | literal _ => rfl
  | function object =>
      rcases List.append_eq_singleton_iff.mp source with ⟨-, own⟩ | ⟨-, none⟩
      · simp [Move.opensObject, own]
      · exact absurd none (collected.pending_ne_nil rfl)

theorem Settles.of_move {move : Move} {settled : List Segment}
    (blocks : settled.filterMap Segment.block? = move.completes?.toList)
    (aborted : settled.countP Segment.isAborted = move.givesUp.toNat)
    (objects
      : move.opensObject.toNat + move.before.object?.isSome.toNat
        = (move.completes?.any fun block => !block.isLiteral).toNat + move.givesUp.toNat
          + move.after.object?.isSome.toNat)
    (made : MadeOfBlocks table settled)
    : Settles table move.before [move] move.after settled := by
  have one (form : Move → Bool) : [move].countP form = (form move).toNat := by
    cases holds : form move <;> simp [holds]
  have only : [move].filterMap Move.completes? = move.completes?.toList := by
    cases completes : move.completes? <;> simp [completes]
  refine { blocks := only ▸ blocks, aborted := one _ ▸ aborted, objects := ?_, made }
  rw [one, one, only, objects]
  cases move.completes? with
  | none => rfl
  | some block => cases isLiteral : block.isLiteral <;> simp [isLiteral]

/-- Where no block is open, a line can only open one. -/
theorem settles_of_closed {before after : Mode} {settled : List Segment}
    (none : before.openBlock? = none) (plain : NoBlocks settled)
    (source : Segments.source settled ++ after.pending = before.pending ++ [line])
    (collected : after.Collected)
    : Settles table before [{ before, line, after }] after settled := by
  let move : Move := { before, line, after }
  rw [Mode.pending_of_closed none, List.nil_append] at source
  have opens : move.opensObject = move.after.object?.isSome :=
    opensObject_of_source source collected
  have closed : move.before.object? = .none ∧ move.before.complete? line = .none := by
    cases before with
    | outside | rodata | entering => exact ⟨rfl, rfl⟩
    | literal _ | function _ => cases none
  have completes : move.completes? = .none := by simp [Move.completes?, move, closed.2]
  have givesUp : move.givesUp = false := by simp [Move.givesUp, closed.1]
  change Settles table move.before [move] move.after settled
  refine .of_move ?_ ?_ ?_ plain.made
  · rw [plain.blocks, completes]
    rfl
  · rw [plain.aborted, givesUp]
    rfl
  · simp [opens, completes, givesUp, closed.1]

/-- A line that is added to the block that is open changes no count. -/
theorem settles_of_goesOn {before after : Mode} (more : before.GoesOn line after)
    (source : after.pending = before.pending ++ [line]) (collected : before.Collected)
    : Settles table before [{ before, line, after }] after [] := by
  let move : Move := { before, line, after }
  have goesOn : move.goesOn = true := decide_eq_true source
  have completes : move.completes? = none := by simp [Move.completes?, goesOn]
  have givesUp : move.givesUp = false := by simp [Move.givesUp, goesOn]
  have opens : move.opensObject = false := by
    cases more with
    | literal _ => rfl
    | @object block stage =>
        have lines : block.lines ≠ [] := collected.pending_ne_nil rfl
        simp [Move.opensObject, move, Mode.pending, FunctionBlock.add, lines]
  have same : move.before.object?.isSome = move.after.object?.isSome := by
    cases more <;> rfl
  change Settles table move.before [move] move.after []
  refine .of_move ?_ ?_ ?_ (List.forall_mem_nil _)
  · rw [completes]
    rfl
  · rw [givesUp]
    rfl
  · simp [opens, completes, givesUp, same]

/-- A line that ends a block completes it or gives it up, by cases on what becomes of it, and may open
another one.
-/
theorem Ends.settles {before after : Mode} {segment : Segment} {rest : List Segment}
    (ends : Ends table line before segment) (plain : NoBlocks rest)
    (source : Segments.source (segment :: rest) ++ after.pending = before.pending ++ [line])
    (collected : before.Collected) (later : after.Collected)
    : Settles table before [{ before, line, after }] after (segment :: rest) := by
  let move : Move := { before, line, after }
  rw [source_cons, ends.source, List.append_assoc] at source
  replace source := List.append_cancel_left source
  have opens : move.opensObject = move.after.object?.isSome := opensObject_of_source source later
  have ended : move.goesOn = false := ends.not_goesOn collected source
  have completes : move.completes? = move.before.complete? line := by
    simp [Move.completes?, ended, move]
  change Settles table move.before [move] move.after (segment :: rest)
  cases ends with
  | @complete _ block complete =>
      rw [complete] at completes
      have object : move.before.object?.isSome = !block.isLiteral :=
        (isComplete_of_complete? complete).kind
      have givesUp : move.givesUp = false := by simp [Move.givesUp, completes]
      refine .of_move ?_ ?_ ?_ ?_
      · rw [List.filterMap_cons, Segment.block?_ofBlock, plain.blocks, completes]
        rfl
      · rw [List.countP_cons, plain.aborted, givesUp, isAborted_ofBlock]
        rfl
      · rw [opens, object, completes, givesUp]
        exact Nat.add_comm _ _
      · refine List.forall_mem_cons.mpr ⟨fun own made => ?_, plain.made⟩
        rw [Segment.eq_of_block?_ofBlock made]
  | givenUp incomplete =>
      rw [incomplete] at completes
      have object : move.before.object?.isSome = true := rfl
      have givesUp : move.givesUp = true := by simp [Move.givesUp, object, completes, ended]
      refine .of_move ?_ ?_ ?_ ?_
      · rw [List.filterMap_cons, plain.blocks, completes]
        rfl
      · rw [List.countP_cons, plain.aborted, givesUp]
        rfl
      · rw [opens, object, completes, givesUp]
        exact Nat.add_comm _ _
      · exact List.forall_mem_cons.mpr ⟨nofun, plain.made⟩
  | bare incomplete =>
      rw [incomplete] at completes
      have object : move.before.object?.isSome = false := rfl
      have givesUp : move.givesUp = false := by simp [Move.givesUp, object]
      refine .of_move ?_ ?_ ?_ ?_
      · rw [List.filterMap_cons, plain.blocks, completes]
        rfl
      · rw [List.countP_cons, plain.aborted, givesUp]
        rfl
      · rw [opens, object, completes, givesUp]
        exact Nat.add_comm _ _
      · exact List.forall_mem_cons.mpr ⟨nofun, plain.made⟩

/-- A move through a line settles what the line completes or gives up. -/
theorem Takes.settles {mode : Mode} {taken : Taken}
    (takes : Takes table number leftAlone line mode taken) (collected : mode.Collected)
    (later : taken.mode.Collected)
    : Settles table mode [{ before := mode, line, after := taken.mode }] taken.mode
        taken.settled := by
  have source := takes.source
  cases takes.turns with
  | closed none plain => exact settles_of_closed none plain source later
  | goesOn more nothing =>
      rw [nothing, source_nil, List.nil_append] at source
      rw [nothing]
      exact settles_of_goesOn more source collected
  | ends ends plain settles =>
      rw [settles] at source ⊢
      exact ends.settles plain source collected later

-----------------------------------------------------------------------------------------
-- Runs
-----------------------------------------------------------------------------------------

section Runs

variable {scanner last : Scanner} {lines seen : List String} {settled : List Segment}

/-- The moves of a run. -/
def Scanner.moves (table : Rom.Table) (scanner : Scanner) (lines : List String) : List Move :=
  movesFrom scanner.mode lines (scanner.course table [] lines).steps

theorem moves_cons {step : Step} (fed : scanner.feed table line = .ok step) (lines : List String)
    : scanner.moves table (line :: lines)
      = { before := scanner.mode, line, after := step.after.mode }
        :: step.after.moves table lines := by
  rw [Scanner.moves, course_cons lines fed]
  rfl

theorem Stands.settles {step : Step} (stands : Stands seen scanner.mode scanner.leftAlone)
    (fed : scanner.feed table line = .ok step)
    : Settles table scanner.mode
        [{ before := scanner.mode, line, after := step.after.mode }] step.after.mode
        step.settled := by
  have takes := (feed_eq_ok_iff.mp fed).1
  exact takes.settles stands.collected (stands.takes takes).collected

/-- A run settles what its moves complete and give up, by induction on the run. -/
theorem Reads.settles (run : Reads table scanner lines settled last)
    (stands : Stands seen scanner.mode scanner.leftAlone)
    : Settles table scanner.mode (scanner.moves table lines) last.mode settled := by
  induction run generalizing seen with
  | nil => exact .nil _
  | cons fed _ ih =>
      rw [moves_cons fed]
      exact (stands.settles fed).append (ih (stands.takes (feed_eq_ok_iff.mp fed).1))

/-- What holds of every line that is taken in step with the lines before it holds of every move of a
run, by induction on the run.
-/
theorem Reads.forall_moves {form : Move → Prop}
    (one
      : ∀ {seen : List String} {scanner : Scanner} {line : String} {step : Step},
          Stands seen scanner.mode scanner.leftAlone
          → scanner.feed table line = .ok step
          → form { before := scanner.mode, line, after := step.after.mode })
    (run : Reads table scanner lines settled last)
    (stands : Stands seen scanner.mode scanner.leftAlone)
    : ∀ move ∈ scanner.moves table lines, form move := by
  induction run generalizing seen with
  | nil => exact List.forall_mem_nil _
  | cons fed _ ih =>
      rw [moves_cons fed]
      exact List.forall_mem_cons.mpr
        ⟨one stands fed, ih (stands.takes (feed_eq_ok_iff.mp fed).1)⟩

theorem Reads.map_line_moves (run : Reads table scanner lines settled last)
    : (scanner.moves table lines).map Move.line = lines := by
  induction run with
  | nil => rfl
  | cons fed _ ih => rw [moves_cons fed, List.map_cons, ih]

/-- An object begins with a line exactly if it is the section line of one, whatever was open before.
-/
theorem Stands.opensObject {step : Step} (stands : Stands seen scanner.mode scanner.leftAlone)
    (fed : scanner.feed table line = .ok step)
    : Move.opensObject { before := scanner.mode, line, after := step.after.mode }
      = isFunctionSection line := by
  have takes := (feed_eq_ok_iff.mp fed).1
  rw [Bool.eq_iff_iff]
  constructor
  · intro opens
    have collected := (stands.takes takes).collected
    cases mode : step.after.mode with
    | outside | rodata | entering | literal _ =>
        simp [Move.opensObject, mode, Mode.object?] at opens
    | function object =>
        rw [mode] at collected
        obtain ⟨opening, others, same, isSection⟩ := FunctionBlock.Collected.opening collected
        obtain ⟨rfl, -⟩ : opening = line ∧ others = [] := by
          simpa [Move.opensObject, mode, Mode.object?, Mode.pending, same] using opens
        exact isSection
  · intro isSection
    obtain ⟨own, opens⟩ :=
      exists_takes_of_functionSection table (scanner.linesRead + 1) scanner.leftAlone
        stands.resting isSection
    rw [opens.feed] at fed
    cases fed
    simp [Move.opensObject, Taken.step, Mode.object?, Mode.pending, FunctionBlock.start]

/-- A run opens as many objects as its lines have section lines of them. -/
theorem Reads.countP_opensObject (run : Reads table scanner lines settled last)
    (stands : Stands seen scanner.mode scanner.leftAlone)
    : (scanner.moves table lines).countP Move.opensObject = lines.countP isFunctionSection := by
  have opens : ∀ move ∈ scanner.moves table lines,
      move.opensObject = isFunctionSection move.line :=
    run.forall_moves (fun stands fed => stands.opensObject fed) stands
  calc (scanner.moves table lines).countP Move.opensObject
      = (scanner.moves table lines).countP (isFunctionSection ∘ Move.line) :=
        List.countP_congr fun move member => by rw [opens move member]; rfl
    _ = ((scanner.moves table lines).map Move.line).countP isFunctionSection :=
        List.countP_map.symm
    _ = lines.countP isFunctionSection := by rw [run.map_line_moves]

theorem isComplete_of_completes? {move : Move} {block : Block}
    (completes : move.completes? = some block)
    : IsComplete move.before block := by
  rw [Move.completes?] at completes
  split at completes
  next => cases completes
  next => exact isComplete_of_complete? completes

end Runs

end Scan

end RomStrings
