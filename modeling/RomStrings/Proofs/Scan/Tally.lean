import Mathlib.Algebra.GroupWithZero.Nat
import RomStrings.Proofs.Counts
import RomStrings.Proofs.Labels
import RomStrings.Proofs.Scan.Moves

/-!
What a scan counts, against what it goes through. Every count but that of the anchors is a count of
blocks, and each block is completed or given up at one line, so none is counted twice however often
that line is read. Anchors are counted by section, and so the lines alone tell how many there are.
-/

namespace RomStrings

open Assembly

/-- ROM holds the block. -/
def Block.isFound (table : Rom.Table) (block : Block) : Bool :=
  (block.find table).isSome

/-- The block that the segment takes from ROM. -/
def Segment.resolvedBlock? : Segment → Option Block
  | .resolved block _ => some block
  | _ => none

def Segment.isAnchored : Segment → Bool
  | .anchored _ _ => true
  | _ => false

-----------------------------------------------------------------------------------------
-- Counts of segments
-----------------------------------------------------------------------------------------

section Counts

variable {table : Rom.Table} {segments : List Segment}

/-- A resolved block counts by its kind, and a literal by how it was found. -/
theorem stats_resolved (block : Block) (found : Rom.Match)
    : (Segment.resolved block found).stats
      = { exactMatches := (block.isLiteral && decide (found.kind = .exact)).toNat
          suffixMatches := (block.isLiteral && decide (found.kind = .suffix)).toNat
          functionMatches := (!block.isLiteral).toNat
          bytesSaved := block.bytes.length } := by
  simp only [Segment.stats, Stats.ofMatch, Block.isLiteral]
  by_cases kind : block.kind = .literal
  · cases found.kind <;> simp [kind]
  · simp [kind]

theorem abortedFunctions_segments (segments : List Segment)
    : (Segments.stats segments).abortedFunctions = segments.countP Segment.isAborted := by
  refine Segments.count_eq_countP { zero := rfl, add := fun _ _ => rfl } fun segment _ => ?_
  cases segment with
  | copied _ | anchored _ _ | aborted _ _ | unmatched _ => rfl
  | resolved block found => rw [stats_resolved]; rfl

theorem anchoredSections_segments (segments : List Segment)
    : (Segments.stats segments).anchoredSections = segments.countP Segment.isAnchored := by
  refine Segments.count_eq_countP { zero := rfl, add := fun _ _ => rfl } fun segment _ => ?_
  cases segment with
  | copied _ | anchored _ _ | aborted _ _ | unmatched _ => rfl
  | resolved block found => rw [stats_resolved]; rfl

/-- A count that blocks of a form add one to, and nothing else does, is the number of those blocks. -/
theorem count_blocks {count : Stats → Int} (additive : Stats.Additive count) {form : Block → Bool}
    (others : ∀ segment : Segment, segment.block? = none → count segment.stats = 0)
    (own : ∀ block, count (Segment.ofBlock table block).stats = (form block).toNat)
    (made : MadeOfBlocks table segments)
    : count (Segments.stats segments) = (segments.filterMap Segment.block?).countP form := by
  rw [List.countP_filterMap]
  refine Segments.count_eq_countP additive fun segment member => ?_
  cases block : segment.block? with
  | none => rw [others segment block]; rfl
  | some complete => rw [made segment member complete block, own]; rfl

theorem unmatched_segments (made : MadeOfBlocks table segments)
    : (Segments.stats segments).unmatched
      = (segments.filterMap Segment.block?).countP fun block => !block.isFound table := by
  refine count_blocks { zero := rfl, add := fun _ _ => rfl } ?_ ?_ made
  · intro segment none
    cases segment <;> first | rfl | cases none
  · intro block
    rw [Segment.ofBlock, Block.isFound]
    cases block.find table with
    | none => rfl
    | some found => rw [stats_resolved]; rfl

theorem functionMatches_segments (made : MadeOfBlocks table segments)
    : (Segments.stats segments).functionMatches
      = (segments.filterMap Segment.block?).countP fun block =>
          !block.isLiteral && block.isFound table := by
  refine count_blocks { zero := rfl, add := fun _ _ => rfl } ?_ ?_ made
  · intro segment none
    cases segment <;> first | rfl | cases none
  · intro block
    rw [Segment.ofBlock, Block.isFound]
    cases block.find table with
    | none => rw [Option.isSome_none, Bool.and_false]; rfl
    | some found => rw [stats_resolved, Option.isSome_some, Bool.and_true]

/-- A literal that ROM holds was found in one of two ways. -/
theorem literalMatches_segments (made : MadeOfBlocks table segments)
    : (Segments.stats segments).exactMatches + (Segments.stats segments).suffixMatches
      = (segments.filterMap Segment.block?).countP fun block =>
          block.isLiteral && block.isFound table := by
  have additive : Stats.Additive fun stats => stats.exactMatches + stats.suffixMatches :=
    Stats.Additive.sum { zero := rfl, add := fun _ _ => rfl } { zero := rfl, add := fun _ _ => rfl }
  refine count_blocks additive ?_ ?_ made
  · intro segment none
    cases segment <;> first | rfl | cases none
  · intro block
    rw [Segment.ofBlock, Block.isFound]
    cases block.find table with
    | none => rw [Option.isSome_none, Bool.and_false]; rfl
    | some found =>
        simp only [stats_resolved, Option.isSome_some, Bool.and_true]
        cases block.isLiteral <;> cases found.kind <;> rfl

theorem bytesSaved_segments (segments : List Segment)
    : (Segments.stats segments).bytesSaved
      = (((segments.filterMap Segment.resolvedBlock?).map fun block => block.bytes.length).sum
          : Nat) := by
  induction segments with
  | nil => rfl
  | cons segment rest ih =>
      have sum : (Segments.stats (segment :: rest)).bytesSaved
          = segment.stats.bytesSaved + (Segments.stats rest).bytesSaved := by
        rw [Segments.stats_cons]
        rfl
      rw [sum, ih]
      cases segment with
      | copied _ | anchored _ _ | aborted _ _ | unmatched _ => exact Int.zero_add _
      | resolved block found =>
          rw [stats_resolved]
          simp [Segment.resolvedBlock?]

/-- The labels that get addresses are those of the resolved blocks. -/
theorem labels_resolutions (segments : List Segment)
    : (segments.filterMap Segment.resolution?).map Prod.fst
      = (segments.filterMap Segment.resolvedBlock?).map Block.label := by
  rw [List.map_filterMap, List.map_filterMap]
  refine congrArg (List.filterMap · segments) (funext fun segment => ?_)
  cases segment <;> rfl

/-- Of the blocks that segments are made of, those are resolved that ROM holds. -/
theorem resolvedBlocks_segments (made : MadeOfBlocks table segments)
    : segments.filterMap Segment.resolvedBlock?
      = (segments.filterMap Segment.block?).filter (Block.isFound table) := by
  rw [List.filter_filterMap]
  refine List.filterMap_congr fun segment member => ?_
  cases block : segment.block? with
  | none => cases segment <;> first | rfl | cases block
  | some own =>
      rw [made segment member own block, Segment.ofBlock]
      cases found : own.find table <;>
        simp [Segment.resolvedBlock?, Option.filter, Block.isFound, found]

theorem totalResolved_resolutions (segments : List Segment)
    : (Segments.stats segments).totalResolved
      = (segments.filterMap Segment.resolution?).length := by
  rw [Scan.totalResolved_segments, List.length_filterMap_eq_countP]
  congr 2
  funext segment
  cases segment <;> rfl

/-- Every block is a literal or none, and ROM holds it or not. -/
theorem countP_blocks (table : Rom.Table) (blocks : List Block)
    : blocks.countP Block.isLiteral + blocks.countP (fun block => !block.isLiteral)
      = blocks.countP (fun block => block.isLiteral && block.isFound table)
        + blocks.countP (fun block => !block.isLiteral && block.isFound table)
        + blocks.countP (fun block => !block.isFound table) := by
  induction blocks with
  | nil => rfl
  | cons block rest ih =>
      simp only [List.countP_cons]
      cases block.isLiteral <;> cases block.isFound table <;> simp <;> omega

end Counts

namespace Scan

variable {table : Rom.Table} {scanner last : Scanner} {lines seen : List String}
  {settled : List Segment}

-----------------------------------------------------------------------------------------
-- Anchors
-----------------------------------------------------------------------------------------

/-- The lines of a section, up to the next line that may change the section. -/
def sectionBody (lines : List String) : List String :=
  lines.takeWhile fun line => !isSectionSwitch line

/-- How many of the lines open a section of read-only data, other than that of a function-name
object, in which an anchor stands.
-/
def anchoredEntries : List String → Nat
  | [] => 0
  | line :: rest =>
      (isRodataSection line && !isFunctionSection line
        && (sectionBody rest).any isAnchor).toNat + anchoredEntries rest

/-- The line is the first anchor of a section. -/
def Region.anchoredBy (region : Region) (line : String) : Bool :=
  decide (region = .rodata false) && !isSectionSwitch line && isAnchor line

/-- How many of the lines are the first anchor of a section, in the region behind those before them.
-/
def Region.firstAnchors : Region → List String → Nat
  | _, [] => 0
  | region, line :: rest =>
      (region.anchoredBy line).toNat + (region.after line).firstAnchors rest

/-- The first anchors of sections are as many as the sections with an anchor, and one more if the
present section is read and has one to come. By induction on the lines.
-/
theorem firstAnchors_eq (region : Region) (lines : List String)
    : region.firstAnchors lines
      = (decide (region = .rodata false) && (sectionBody lines).any isAnchor).toNat
        + anchoredEntries lines := by
  induction lines generalizing region with
  | nil => simp [Region.firstAnchors, sectionBody, anchoredEntries]
  | cons line rest ih =>
      rw [Region.firstAnchors, ih]
      cases switches : isSectionSwitch line with
      | true =>
          have body : sectionBody (line :: rest) = [] := by simp [sectionBody, switches]
          have first : region.anchoredBy line = false := by simp [Region.anchoredBy, switches]
          have entry : decide (region.after line = .rodata false)
              = (isRodataSection line && !isFunctionSection line) := by
            cases opens : isRodataSection line && !isFunctionSection line <;>
              simp [Region.after, switches, opens]
          rw [body, first, entry, anchoredEntries]
          simp
      | false =>
          have plain : isRodataSection line = false := by
            cases opens : isRodataSection line with
            | false => rfl
            | true => exact absurd (isSectionSwitch_of_isRodataSection opens) (by simp [switches])
          have body : sectionBody (line :: rest) = line :: sectionBody rest := by
            simp [sectionBody, switches]
          rw [body, anchoredEntries, plain]
          cases region with
          | outside => simp [Region.anchoredBy, Region.after, switches]
          | rodata anchored =>
              cases anchored <;> cases anchors : isAnchor line <;>
                simp [Region.anchoredBy, Region.after, switches, anchors]

theorem isAnchored_ofBlock (block : Block)
    : (Segment.ofBlock table block).isAnchored = false := by
  simp only [Segment.ofBlock]
  cases block.find table <;> rfl

theorem isAnchored_ofLiteral (literal : Literal)
    : (Segment.ofLiteral table literal).isAnchored = false := by
  simp only [Segment.ofLiteral]
  split
  next => rfl
  next => exact isAnchored_ofBlock _

/-- A line settles an anchor exactly if it is the first one of its section, by induction on the
rules.
-/
theorem Takes.countP_isAnchored {number : Nat} {leftAlone : Bool} {line : String} {mode : Mode}
    {taken : Taken} (takes : Takes table number leftAlone line mode taken)
    : taken.settled.countP Segment.isAnchored
      = ((mode.region leftAlone).anchoredBy line).toNat := by
  have outside : Region.outside.anchoredBy line = false := rfl
  induction takes with
  | entering | rodataSection _ _ | outside _ _ | accepted _ =>
      rw [Mode.region, outside]
      rfl
  | functionSection _ _ ih => exact ih
  | sectionSwitch switches _ ih =>
      rw [ih]
      simp [Mode.region, Region.anchoredBy, switches]
  | leftAlone _ alone => simp [Mode.region, Region.anchoredBy, alone, Segment.isAnchored]
  | anchor stays read anchors =>
      simp [Mode.region, Region.anchoredBy, stays, read, anchors, Segment.isAnchored]
  | label _ _ plain _ => simp [Mode.region, Region.anchoredBy, plain]
  | other _ _ plain _ => simp [Mode.region, Region.anchoredBy, plain, Segment.isAnchored]
  | payload stores _ =>
      simp [Mode.region, Region.anchoredBy, isAnchor_of_payload? stores]
  | literalEnds _ _ ih =>
      rw [List.countP_cons, isAnchored_ofLiteral, ih]
      rfl
  | completed _ _ ih =>
      rw [List.countP_cons, isAnchored_ofBlock, ih]
      rfl
  | misfit _ _ ih =>
      rw [List.countP_cons, ih]
      rfl

/-- A run settles the first anchors of its sections, by induction on the run. -/
theorem Reads.countP_isAnchored (run : Reads table scanner lines settled last)
    (stands : Stands seen scanner.mode scanner.leftAlone)
    : settled.countP Segment.isAnchored
      = (scanner.mode.region scanner.leftAlone).firstAnchors lines := by
  induction run generalizing seen with
  | nil => rfl
  | cons fed _ ih =>
      have takes := (feed_eq_ok_iff.mp fed).1
      have region := takes.region fun enters => absurd enters stands.resting
      have first := takes.countP_isAnchored
      rw [List.countP_append, ih (stands.takes takes), first, region]
      rfl

-----------------------------------------------------------------------------------------
-- What is counted
-----------------------------------------------------------------------------------------

/-- Where no block is left open, the literals that are complete and the objects that are opened are
those that ROM holds, those that it does not hold, and those that are given up.
-/
theorem Settles.total {moves : List Move} {last : Mode} {segments : List Segment}
    (own : Settles table .outside moves last segments) (closed : last.openBlock? = none)
    : (moves.filterMap Move.completes?).countP Block.isLiteral + moves.countP Move.opensObject
      = (moves.filterMap Move.completes?).countP
            (fun block => block.isLiteral && block.isFound table)
        + (moves.filterMap Move.completes?).countP
            (fun block => !block.isLiteral && block.isFound table)
        + (moves.filterMap Move.completes?).countP (fun block => !block.isFound table)
        + moves.countP Move.givesUp := by
  have none : last.object?.isSome = false := by
    cases last with
    | outside | rodata | entering | literal _ => rfl
    | function object => cases closed
  have objects := own.objects
  rw [none] at objects
  have blocks := countP_blocks table (moves.filterMap Move.completes?)
  simp only [Mode.object?, Option.isSome_none, Bool.toNat_false] at objects
  omega

/-- The counts of segments account for everything that the scan goes through. -/
structure Tallies (table : Rom.Table) (history : History) (segments : List Segment) : Prop where
  /-- The blocks that are taken from ROM are those that are complete and that it holds. -/
  resolved
    : segments.filterMap Segment.resolvedBlock? = history.blocks.filter (Block.isFound table)
  /-- Every complete literal and every object that is opened is counted once. -/
  total
    : (history.blocks.countP Block.isLiteral + history.moves.countP Move.opensObject : Int)
      = (Segments.stats segments).exactMatches + (Segments.stats segments).suffixMatches
        + (Segments.stats segments).functionMatches + (Segments.stats segments).unmatched
        + (Segments.stats segments).abortedFunctions
  /-- Every section line of a function-name object opens one. -/
  opened : history.moves.countP Move.opensObject = history.lines.countP isFunctionSection
  literals
    : (Segments.stats segments).exactMatches + (Segments.stats segments).suffixMatches
      = history.blocks.countP fun block => block.isLiteral && block.isFound table
  objects
    : (Segments.stats segments).functionMatches
      = history.blocks.countP fun block => !block.isLiteral && block.isFound table
  unmatched
    : (Segments.stats segments).unmatched
      = history.blocks.countP fun block => !block.isFound table
  givenUp : (Segments.stats segments).abortedFunctions = history.moves.countP Move.givesUp
  /-- The bytes of a block are those that its lines store. -/
  stored : ∀ block ∈ history.blocks, Stores block.lines block.bytes
  saved
    : (Segments.stats segments).bytesSaved
      = (((history.blocks.filter (Block.isFound table)).map fun block => block.bytes.length).sum
          : Nat)
  /-- A section with an anchor is counted once, however many anchors follow. -/
  anchored : (Segments.stats segments).anchoredSections = anchoredEntries history.lines
  /-- No more labels get an address than blocks are taken from ROM. -/
  labels
    : ((Segments.resolution segments).length : Int) ≤ (Segments.stats segments).totalResolved
  /-- As many do exactly if no two of these blocks have the same label. -/
  distinct
    : ((Segments.resolution segments).length : Int) = (Segments.stats segments).totalResolved
      ↔ ((history.blocks.filter (Block.isFound table)).map Block.label).Nodup

/-- Statistics account for every block once. What a run settles is made of the blocks that its moves
complete and give up, and behind a successful scan no object is left open.
-/
theorem scan_tallies {segments : List Segment}
    (success : Scan.segments table lines = .ok segments)
    : Tallies table (history table lines) segments := by
  obtain ⟨last, run, closed⟩ := segments_eq_ok_iff.mp success
  have own : Settles table .outside (history table lines).moves last.mode segments :=
    run.settles stands_start
  have made := own.made
  have blocks : segments.filterMap Segment.block? = (history table lines).blocks := own.blocks
  have literals := literalMatches_segments made
  have objects := functionMatches_segments made
  have unmatched := unmatched_segments made
  have givenUp := abortedFunctions_segments segments
  have resolved := resolvedBlocks_segments made
  rw [blocks] at literals objects unmatched resolved
  rw [own.aborted] at givenUp
  have labels := labels_resolutions segments
  rw [resolved] at labels
  have total := totalResolved_resolutions segments
  exact {
    resolved
    total := by
      rw [literals, objects, unmatched, givenUp]
      exact_mod_cast own.total closed
    opened := run.countP_opensObject stands_start
    literals
    objects
    unmatched
    givenUp
    stored := by
      intro block member
      obtain ⟨move, moves, completes⟩ := List.mem_filterMap.mp member
      have collected : ∀ move ∈ (history table lines).moves, move.before.Collected :=
        run.forall_moves (fun stands _ => stands.collected) stands_start
      exact (isComplete_of_completes? completes).stored (collected move moves)
    saved := by rw [bytesSaved_segments, resolved]
    anchored := by
      rw [anchoredSections_segments, run.countP_isAnchored stands_start]
      exact congrArg _ ((firstAnchors_eq .outside lines).trans (Nat.zero_add _))
    labels := by
      rw [total]
      exact Int.ofNat_le.mpr (Resolution.length_ofPairs_le _)
    distinct := by
      rw [total, ← labels, ← Resolution.length_ofPairs_eq_iff]
      exact Int.ofNat_inj
  }

/-- Six blocks, each of which ends in a way of its own: two literals of one label that ROM holds, one
that it does not hold, a label of no string, a function's name, and an object that is given up. Two
anchors stand in the one section.
-/
theorem scan_tallies_of_mixed_blocks
    : let table := Rom.Table.ofImage [104, 105, 0] 4096
      let lines :=
        ["\t.section\t.rodata", ".LC0:", "\t.string\t\"hi\"", ".LC0:", "\t.string\t\"i\"",
          ".LC1:", "\t.string\t\"no\"", ".LC2:", "\t.set\t.LANCHOR0,. + 0",
          "\t.set\t.LANCHOR1,. + 0", "\t.section\t.rodata.__func__.1,\"a\"",
          "\t.type\tf, %object", "f:", "\t.ascii\t\"hi\\000\"",
          "\t.section\t.rodata.__func__.2,\"a\"", "\t.text"]
      ∃ segments,
        Scan.segments table lines = .ok segments
        ∧ (Segments.stats segments, Segments.resolution segments)
          = ({ exactMatches := 1
               suffixMatches := 1
               functionMatches := 1
               unmatched := 1
               abortedFunctions := 1
               anchoredSections := 1
               bytesSaved := 8 },
              [(".LC0", 4097), ("f", 4096)])
        ∧ Tallies table (history table lines) segments := by
  refine exists_segments (fun _ success => scan_tallies success) ?_
  decide +kernel

end Scan

end RomStrings
