import RomStrings.Proofs.Scan.Conservation
import RomStrings.Proofs.Scan.Region

/-!
How the segments of a scan are laid out. Each segment is read in the region behind the segments
before it, and the first line behind a block is what ends the block. Lines and segments are related
here once, so later proofs follow the segments and need no run of lines.
-/

namespace RomStrings.Scan

open Assembly

/-- A line that is copied in the region. In a section that is read, it is no anchor and no label. -/
structure Region.Copies (region : Region) (line : String) : Prop where
  notFunction : isFunctionSection line = false
  plain
    : isSectionSwitch line = false
      → region = .rodata false
      → isAnchor line = false ∧ label? line = none

/-- The segments are laid out one behind the other, and the first of them is read in the region. -/
inductive Laid (table : Rom.Table) : Region → List Segment → Prop
  | nil {region} : Laid table region []
  | copied {region line rest} (copies : region.Copies line)
    (later : Laid table (region.after line) rest)
    : Laid table region (.copied line :: rest)
  | anchored {number line rest} (anchors : isAnchor line = true)
    (later : Laid table (.rodata true) rest)
    : Laid table (.rodata false) (.anchored number line :: rest)
  | literal {literal : Literal} {rest next} (collected : literal.Collected)
    (follows : (Segments.source rest).head? = some next) (ends : payload? next = none)
    (later : Laid table (.rodata false) rest)
    : Laid table (.rodata false) (Segment.ofLiteral table literal :: rest)
  | completed {region number anchor symbol bytes rest next} {object : FunctionBlock}
    (collected : object.Collected)
    (follows : (Segments.source rest).head? = some next)
    (ends : object.stage.advance number next = .ok (.complete anchor symbol bytes))
    (later : Laid table .outside rest)
    : Laid table region
        (Segment.ofBlock table (object.complete anchor symbol bytes) :: rest)
  | aborted {region number reason rest next} {object : FunctionBlock}
    (collected : object.Collected)
    (follows : (Segments.source rest).head? = some next)
    (ends : object.stage.advance number next = .ok (.misfit reason))
    (later : Laid table .outside rest)
    : Laid table region (.aborted object reason :: rest)

variable {table : Rom.Table}

theorem copies_of_unread {region : Region} {line : String}
    (notFunction : isFunctionSection line = false) (unread : region ≠ .rodata false)
    : region.Copies line :=
  { notFunction, plain := fun _ read => absurd read unread }

theorem notFunction_of_stays {line : String} (stays : isSectionSwitch line = false)
    : isFunctionSection line = false := by
  cases opens : isFunctionSection line with
  | false => rfl
  | true =>
      rw [isSectionSwitch_of_isFunctionSection opens] at stays
      contradiction

-----------------------------------------------------------------------------------------
-- From runs to layouts
-----------------------------------------------------------------------------------------

/-- What is settled from a mode on is laid out from the mode's region on. An open block is laid out
with it, and its own lines come first.
-/
def Mode.Closes (table : Rom.Table) (leftAlone : Bool) (mode : Mode) (settled : List Segment)
    : Prop :=
  match mode with
  | .outside => Laid table .outside settled
  | .rodata => Laid table (.rodata leftAlone) settled
  | .literal block => block.Collected → leftAlone = false → Laid table (.rodata false) settled
  | .entering => ∀ region, Laid table region settled
  | .function block => block.Collected → ∀ region, Laid table region settled

/-- A region does not matter to segments that start with a switch. -/
theorem Laid.of_switch {segments : List Segment} {line : String}
    (laid : Laid table .outside segments)
    (starts : (Segments.source segments).head? = some line)
    (switches : isSectionSwitch line = true) (region : Region)
    : Laid table region segments := by
  cases laid with
  | nil => cases starts
  | copied copies later =>
      cases starts
      refine .copied { notFunction := copies.notFunction, plain := ?_ } ?_
      · intro stays
        simp [switches] at stays
      · rwa [after_of_switch .outside switches]
  | completed collected follows ends later => exact .completed collected follows ends later
  | aborted collected follows ends later => exact .aborted collected follows ends later

/-- Where nothing is pending, the line taken comes first in what is settled from it on. -/
theorem Takes.follows {number : Nat} {leftAlone : Bool} {line : String} {mode : Mode}
    {taken : Taken} {later : List Segment} {lines : List String}
    (takes : Takes table number leftAlone line mode taken) (closed : mode.pending = [])
    (source : Segments.source later = taken.mode.pending ++ lines)
    : (Segments.source (taken.settled ++ later)).head? = some line := by
  rw [source_append, source, ← List.append_assoc, takes.source, closed]
  rfl

/-- A line taken is laid out before what is settled later, by cases on the rules. -/
theorem Takes.closes {number : Nat} {leftAlone : Bool} {line : String} {mode : Mode}
    {taken : Taken} {later : List Segment} {lines : List String}
    (takes : Takes table number leftAlone line mode taken)
    (enters : mode = .entering → isFunctionSection line = true)
    (source : Segments.source later = taken.mode.pending ++ lines)
    (closes : taken.mode.Closes table taken.leftAlone later)
    : mode.Closes table leftAlone (taken.settled ++ later) := by
  induction takes with
  | entering => exact fun region => closes (.start (enters rfl)) region
  | functionSection opens _ ih => exact ih (fun _ => opens) source closes .outside
  | rodataSection notFunction opens =>
      refine .copied (copies_of_unread notFunction (by simp)) ?_
      rw [after_of_rodataSection notFunction opens]
      exact closes
  | outside notFunction notRodata =>
      refine .copied (copies_of_unread notFunction (by simp)) ?_
      rw [after_outside (.inl notRodata)]
      exact closes
  | sectionSwitch switches next ih =>
      have laid := ih Mode.noConfusion source closes
      exact laid.of_switch (next.follows rfl source) switches _
  | leftAlone stays alone =>
      subst alone
      refine .copied (copies_of_unread (notFunction_of_stays stays) (by simp)) ?_
      have same : (Region.rodata true).after line = .rodata true := by simp [Region.after, stays]
      rw [same]
      exact closes
  | anchor stays read anchors =>
      subst read
      exact .anchored anchors closes
  | label stays read plain labels =>
      subst read
      exact closes { stays, labels, stores := List.forall_mem_nil _ } rfl
  | other stays read plain unlabelled =>
      subst read
      refine .copied
        { notFunction := notFunction_of_stays stays, plain := fun _ _ => ⟨plain, unlabelled⟩ } ?_
      rw [after_of_plain stays plain]
      exact closes
  | payload stores decodes => exact fun collected => closes (collected.add stores decodes)
  | literalEnds ends next ih =>
      intro collected alone
      subst alone
      have follows := next.follows rfl source
      exact .literal collected follows ends (ih Mode.noConfusion source closes)
  | accepted fits => exact fun collected => closes (collected.add fits)
  | completed ends next ih =>
      have follows := next.follows rfl source
      exact fun collected _ => .completed collected follows ends (ih Mode.noConfusion source closes)
  | misfit ends next ih =>
      have follows := next.follows rfl source
      exact fun collected _ => .aborted collected follows ends (ih Mode.noConfusion source closes)

/-- A run that leaves nothing open settles segments that are laid out, by induction on the run. -/
theorem Reads.closes {scanner last : Scanner} {lines : List String} {settled : List Segment}
    (run : Reads table scanner lines settled last) (closed : last.mode.openBlock? = none)
    (resting : scanner.mode ≠ .entering)
    : scanner.mode.Closes table scanner.leftAlone settled := by
  induction run with
  | @nil scanner =>
      cases mode : scanner.mode with
      | outside | rodata => exact .nil
      | entering => exact absurd mode resting
      | literal _ | function _ => simp [mode, Mode.openBlock?] at closed
  | cons fed rest ih =>
      have takes := (feed_eq_ok_iff.mp fed).1
      have source := rest.source
      rw [Mode.pending_of_closed closed, List.append_nil] at source
      exact takes.closes (fun enters => absurd enters resting) source
        (ih closed takes.ne_entering)

theorem laid_segments {lines : List String} {segments : List Segment}
    (success : Scan.segments table lines = .ok segments)
    : Laid table .outside segments := by
  obtain ⟨last, run, closed⟩ := segments_eq_ok_iff.mp success
  exact run.closes closed Mode.noConfusion

-----------------------------------------------------------------------------------------
-- Regions along a layout
-----------------------------------------------------------------------------------------

theorem behind_literal {literal : Literal} (collected : literal.Collected)
    (region : Region)
    : region.behind literal.lines = region :=
  behind_label collected.stays collected.labels (isPayload_of_collected collected) region

/-- A function-name object leaves read-only data, by induction on its lines. -/
theorem behind_object {object : FunctionBlock} (collected : object.Collected)
    (region : Region)
    : region.behind object.lines = .outside := by
  induction collected with
  | start opens => exact after_of_functionSection opens
  | add _ accepts ih =>
      have notRodata := (FunctionStage.fits_of_advance accepts).isRodataSection
      rw [FunctionBlock.add, behind_append, ih]
      exact after_outside (.inl notRodata)

/-- Segments are laid out from the region on that is behind the segments before them, by induction
on those.
-/
theorem Laid.split {region : Region} {before rest : List Segment}
    (laid : Laid table region (before ++ rest))
    : Laid table (region.behind (Segments.source before)) rest := by
  induction before generalizing region with
  | nil => exact laid
  | cons segment before ih =>
      rw [source_cons, behind_append]
      rw [List.cons_append] at laid
      generalize whole : segment :: (before ++ rest) = segments at laid
      cases laid with
      | nil => cases whole
      | copied copies later =>
          cases whole
          exact ih later
      | @anchored number line _ anchors later =>
          cases whole
          have stays := isSectionSwitch_of_isAnchor anchors
          have region : (Region.rodata false).behind [line] = .rodata true := by
            simp [Region.behind, Region.after, stays, anchors]
          exact ih (region ▸ later)
      | literal collected _ _ later =>
          cases whole
          rw [source_ofLiteral, behind_literal collected]
          exact ih later
      | completed collected _ _ later =>
          cases whole
          rw [source_ofBlock, FunctionBlock.lines_complete, behind_object collected]
          exact ih later
      | aborted collected _ _ later =>
          cases whole
          rw [Segment.source, behind_object collected]
          exact ih later

-----------------------------------------------------------------------------------------
-- Resolved blocks
-----------------------------------------------------------------------------------------

/-- A block that stands in the region and is taken from ROM: a literal of a section that is read, or
a function-name object.
-/
inductive Resolves (table : Rom.Table) : Region → Block → Rom.Match → Prop
  | literal {literal : Literal} {found} (collected : literal.Collected)
    (matched : table.matchLiteral literal.bytes = some found)
    : Resolves table (.rodata false) literal.block found
  | object {object : FunctionBlock} {region anchor symbol bytes found}
    (collected : object.Collected) (stage : object.stage = .filled anchor symbol bytes)
    (matched : table.matchFunction bytes = some found)
    : Resolves table region (object.complete anchor symbol bytes) found

theorem resolved_of_ofBlock {own block : Block} {found : Rom.Match}
    (same : Segment.ofBlock table own = .resolved block found)
    : own = block ∧ own.find table = some found := by
  simp only [Segment.ofBlock] at same
  split at same
  next matched => cases same; exact ⟨rfl, matched⟩
  next => cases same

/-- A block is written as it is, or it is taken from ROM. -/
theorem ofBlock_cases (table : Rom.Table) (block : Block)
    : (Segment.ofBlock table block = .unmatched block ∧ block.find table = none)
      ∨ ∃ found, Segment.ofBlock table block = .resolved block found := by
  cases matched : block.find table with
  | none => exact .inl ⟨by simp [Segment.ofBlock, matched], rfl⟩
  | some found => exact .inr ⟨found, by simp [Segment.ofBlock, matched]⟩

theorem ofLiteral_cases (table : Rom.Table) (literal : Literal)
    : (Segment.ofLiteral table literal).isResolved = false
      ∨ ∃ found, Segment.ofLiteral table literal = .resolved literal.block found := by
  simp only [Segment.ofLiteral]
  split
  next => exact .inl rfl
  next =>
    rcases ofBlock_cases table literal.block with ⟨unmatched, -⟩ | resolved
    · exact .inl (by rw [unmatched]; rfl)
    · exact .inr resolved

/-- A resolved segment is a block taken from ROM, by cases on the layout. -/
theorem Laid.resolves {region : Region} {block : Block} {found : Rom.Match}
    {rest : List Segment} (laid : Laid table region (.resolved block found :: rest))
    : Resolves table region block found := by
  generalize whole : Segment.resolved block found :: rest = segments at laid
  cases laid with
  | nil | copied | anchored | aborted => cases whole
  | literal collected _ _ _ =>
      have same := (List.cons.inj whole).1.symm
      simp only [Segment.ofLiteral] at same
      split at same
      next => cases same
      next =>
        obtain ⟨rfl, matched⟩ := resolved_of_ofBlock same
        exact .literal collected matched
  | completed collected _ ends _ =>
      obtain ⟨rfl, matched⟩ := resolved_of_ofBlock (List.cons.inj whole).1.symm
      exact .object collected (FunctionStage.eq_filled_of_complete ends).1 matched

/-- Every resolved segment of an input is a block taken from ROM, in the region behind the lines
before it.
-/
theorem resolves_of_segments {lines : List String} {before after : List Segment} {block : Block}
    {found : Rom.Match}
    (success : Scan.segments table lines = .ok (before ++ .resolved block found :: after))
    : Resolves table (regionOf (Segments.source before)) block found := by
  have laid := (laid_segments success).split.resolves
  have region := regionOf_append [] (Segments.source before)
  rw [List.nil_append, regionOf_nil] at region
  rwa [region]

/-- Each symbol of a resolved block stands on one of its lines, as a label or as an anchor. -/
theorem Resolves.symbol_line {region : Region} {block : Block} {found : Rom.Match}
    (resolves : Resolves table region block found)
    : ∀ symbol ∈ movedSymbols block.label block.anchor,
        ∃ line ∈ block.lines,
          label? line = some symbol ∨ anchorDefinition? line = some symbol := by
  intro symbol member
  cases resolves with
  | @literal literal _ collected _ =>
      obtain rfl := List.mem_singleton.mp member
      exact ⟨literal.labelLine, List.mem_cons_self, .inl collected.labels⟩
  | @object object _ anchor label _ _ collected stage _ =>
      rcases List.mem_append.mp member with member | member
      · obtain rfl := Option.mem_toList.mp member
        obtain ⟨line, known, defines⟩ := collected.anchor (by rw [stage]; rfl)
        exact ⟨line, known, .inr defines⟩
      · obtain rfl := List.mem_singleton.mp member
        obtain ⟨line, known, labels⟩ := collected.label (by rw [stage]; rfl)
        exact ⟨line, known, .inl labels⟩

end RomStrings.Scan
