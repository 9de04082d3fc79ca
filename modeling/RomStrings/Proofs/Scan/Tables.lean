import RomStrings.Proofs.Counts
import RomStrings.Proofs.Labels
import RomStrings.Proofs.Rom.Keys
import RomStrings.Proofs.Scan.Alike
import RomStrings.Proofs.Scan.OutputLines

/-!
What a scan owes to its table. Which blocks there are, and whether the input is at fault, does not
depend on what ROM holds; and with more strings in ROM, no block that was resolved is lost.
-/

namespace RomStrings

variable {table other : Rom.Table}

-----------------------------------------------------------------------------------------
-- Blocks in any table
-----------------------------------------------------------------------------------------

/-- Counts that do not depend on what ROM holds. -/
structure SameBlocks (first second : Stats) : Prop where
  abortedFunctions : first.abortedFunctions = second.abortedFunctions
  anchoredSections : first.anchoredSections = second.anchoredSections
  blocks : first.totalResolved + first.unmatched = second.totalResolved + second.unmatched

/-- A block is resolved or unmatched, and nothing else is counted of it. -/
theorem Segment.sameBlocks_ofBlock (table : Rom.Table) (block : Block)
    : SameBlocks (ofBlock table block).stats { unmatched := 1 } := by
  simp only [ofBlock]
  cases block.find table with
  | none => exact ⟨rfl, rfl, rfl⟩
  | some found =>
      simp only [stats, Stats.ofMatch]
      split
      · exact ⟨rfl, rfl, rfl⟩
      · split <;> exact ⟨rfl, rfl, rfl⟩

theorem Segment.Alike.sameBlocks {segment own : Segment}
    (alike : Segment.Alike table other segment own)
    : SameBlocks segment.stats own.stats := by
  cases alike with
  | copied | anchored | aborted => exact ⟨rfl, rfl, rfl⟩
  | @block block count =>
      obtain ⟨aborted, anchored, blocks⟩ := Segment.sameBlocks_ofBlock table block
      obtain ⟨aborted', anchored', blocks'⟩ :=
        Segment.sameBlocks_ofBlock other { block with number := count }
      exact ⟨aborted.trans aborted'.symm, anchored.trans anchored'.symm, blocks.trans blocks'.symm⟩

/-- Segments of the same lines have the same blocks, count by count. -/
theorem sameBlocks_of_alike {segments own : List Segment}
    (alike : List.Forall₂ (Segment.Alike table other) segments own)
    : SameBlocks (Segments.stats segments) (Segments.stats own) where
  abortedFunctions :=
    Segments.count_eq { zero := rfl, add := fun _ _ => rfl } alike fun _ _ same =>
      same.sameBlocks.abortedFunctions
  anchoredSections :=
    Segments.count_eq { zero := rfl, add := fun _ _ => rfl } alike fun _ _ same =>
      same.sameBlocks.anchoredSections
  blocks :=
    Segments.count_eq (Stats.additive_totalResolved.sum { zero := rfl, add := fun _ _ => rfl })
      alike fun _ _ same => same.sameBlocks.blocks

-----------------------------------------------------------------------------------------
-- Blocks in a table with more strings
-----------------------------------------------------------------------------------------

/-- Counts that do not fall when ROM holds more. -/
structure CountsGrow (first second : Stats) : Prop where
  exactMatches : first.exactMatches ≤ second.exactMatches
  functionMatches : first.functionMatches ≤ second.functionMatches
  totalResolved : first.totalResolved ≤ second.totalResolved
  bytesSaved : first.bytesSaved ≤ second.bytesSaved

theorem CountsGrow.refl (stats : Stats) : CountsGrow stats stats :=
  ⟨Int.le_refl _, Int.le_refl _, Int.le_refl _, Int.le_refl _⟩

/-- A block found at all counts no less than one that is not found. -/
theorem countsGrow_ofMatch (kind : Rom.MatchKind) (isFunction : Bool) (size : Nat)
    : CountsGrow { unmatched := 1 } (Stats.ofMatch kind isFunction size) := by
  cases isFunction with
  | true => constructor <;> simp [Stats.ofMatch, Stats.totalResolved]
  | false =>
      cases kind <;> constructor <;> simp [Stats.ofMatch, Stats.totalResolved]

/-- A block found as a whole string counts no less than one found as a tail. -/
theorem countsGrow_exact {kind better : Rom.MatchKind} (whole : kind = .exact → better = .exact)
    (isFunction : Bool) (size : Nat)
    : CountsGrow (Stats.ofMatch kind isFunction size) (Stats.ofMatch better isFunction size) := by
  cases isFunction with
  | true => exact CountsGrow.refl _
  | false =>
      cases kind with
      | exact => rw [whole rfl]; exact CountsGrow.refl _
      | suffix => cases better <;> constructor <;> simp [Stats.ofMatch, Stats.totalResolved]

/-- A segment against that of the same lines where ROM holds more. -/
structure SegmentGrows (segment own : Segment) : Prop where
  source : own.source = segment.source
  resolved : segment.isResolved = true → own.isResolved = true
  label
    : ∀ label place,
        segment.resolution? = some (label, place) → ∃ better, own.resolution? = some (label, better)
  counts : CountsGrow segment.stats own.stats

/-- A segment that is not resolved has only its counts to lose. -/
theorem SegmentGrows.of_unresolved {segment own : Segment} (source : own.source = segment.source)
    (kept : segment.isResolved = false) (counts : CountsGrow segment.stats own.stats)
    : SegmentGrows segment own := by
  cases segment with
  | resolved block found => contradiction
  | copied _ | anchored _ _ | aborted _ _ | unmatched _ =>
      refine { source, resolved := ?_, label := ?_, counts }
      · intro resolved
        cases resolved
      · intro label place same
        cases same

/-- With more strings in ROM a segment grows: a block that was found is found again, and a whole
string stays one.
-/
theorem Segment.Alike.grows {segment own : Segment}
    (alike : Segment.Alike table other segment own) (keys : table.strings ⊆ other.strings)
    : SegmentGrows segment own := by
  cases alike with
  | copied | anchored | aborted => exact .of_unresolved rfl rfl (CountsGrow.refl _)
  | @block block count =>
      have numbered : Block.find { block with number := count } other = block.find other := rfl
      simp only [Segment.ofBlock, numbered]
      cases found : block.find table with
      | none =>
          cases block.find other with
          | none => exact .of_unresolved rfl rfl (CountsGrow.refl _)
          | some better => exact .of_unresolved rfl rfl (countsGrow_ofMatch _ _ _)
      | some place =>
          obtain ⟨better, known, whole⟩ := Block.find_mono keys found
          simp only [known]
          refine ⟨rfl, id, ?_, countsGrow_exact whole _ _⟩
          intro label place same
          cases same
          exact ⟨better.address, rfl⟩

/-- One input line in two outputs: where it is an annotation in the first, it is one in the second.
-/
structure StaysAnnotated (first second : OutputLine) : Prop where
  source : second.source? = first.source?
  annotated : ∀ line, first = .annotated line → second = .annotated line

/-- A segment's lines stay annotated, as all of them are if any is. -/
theorem SegmentGrows.staysAnnotated {segment own : Segment} (grows : SegmentGrows segment own)
    : List.Forall₂ StaysAnnotated (OutputLine.fromInput segment.outputLines)
        (OutputLine.fromInput own.outputLines) := by
  rw [Segment.fromInput_outputLines, Segment.fromInput_outputLines, grows.source,
    List.forall₂_map_left_iff, List.forall₂_map_right_iff, List.forall₂_same]
  intro line _
  cases resolved : segment.isResolved with
  | true =>
      rw [grows.resolved resolved]
      exact ⟨rfl, fun _ => id⟩
  | false => cases own.isResolved <;> exact ⟨rfl, nofun⟩

section Grow

variable {segments own : List Segment}

/-- Counts of segments that grow do so in all, count by count. -/
theorem countsGrow_of_grows (grow : List.Forall₂ SegmentGrows segments own)
    : CountsGrow (Segments.stats segments) (Segments.stats own) where
  exactMatches :=
    Segments.count_le { zero := rfl, add := fun _ _ => rfl } grow fun _ _ grows =>
      grows.counts.exactMatches
  functionMatches :=
    Segments.count_le { zero := rfl, add := fun _ _ => rfl } grow fun _ _ grows =>
      grows.counts.functionMatches
  totalResolved :=
    Segments.count_le Stats.additive_totalResolved grow fun _ _ grows => grows.counts.totalResolved
  bytesSaved :=
    Segments.count_le { zero := rfl, add := fun _ _ => rfl } grow fun _ _ grows =>
      grows.counts.bytesSaved

/-- The input lines of segments that grow stay annotated, by induction on the segments. -/
theorem staysAnnotated_of_grows (grow : List.Forall₂ SegmentGrows segments own)
    : List.Forall₂ StaysAnnotated (OutputLine.fromInput (Segments.outputLines segments))
        (OutputLine.fromInput (Segments.outputLines own)) := by
  induction grow with
  | nil => exact .nil
  | cons grows _ ih =>
      simp only [Segments.outputLines, List.flatMap_cons, OutputLine.fromInput_append] at ih ⊢
      exact List.rel_append grows.staysAnnotated ih

theorem mem_labels_resolution {label : String}
    : label ∈ (Segments.resolution segments).map Prod.fst
      ↔ ∃ segment ∈ segments, ∃ place, segment.resolution? = some (label, place) := by
  rw [Segments.resolution, Resolution.ofPairs, Resolution.mem_labels_insertAll]
  simp only [List.map_nil, List.not_mem_nil, false_or, List.mem_map, List.mem_filterMap]
  constructor
  · intro given
    obtain ⟨⟨_, place⟩, ⟨segment, member, resolves⟩, rfl⟩ := given
    exact ⟨segment, member, place, resolves⟩
  · intro given
    obtain ⟨segment, member, place, resolves⟩ := given
    exact ⟨(label, place), ⟨segment, member, resolves⟩, rfl⟩

/-- A label that a segment resolves is resolved by its counterpart, by induction on the segments. -/
theorem labels_of_grows (grow : List.Forall₂ SegmentGrows segments own)
    : (Segments.resolution segments).map Prod.fst ⊆ (Segments.resolution own).map Prod.fst := by
  intro label listed
  rw [mem_labels_resolution] at listed ⊢
  induction grow with
  | nil => simp at listed
  | cons grows _ ih =>
      obtain ⟨segment, member, place, resolves⟩ := listed
      rcases List.mem_cons.mp member with rfl | later
      · obtain ⟨better, known⟩ := grows.label label place resolves
        exact ⟨_, List.mem_cons_self, better, known⟩
      · obtain ⟨segment, member, place, resolves⟩ := ih ⟨segment, later, place, resolves⟩
        exact ⟨segment, List.mem_cons_of_mem _ member, place, resolves⟩

end Grow

-----------------------------------------------------------------------------------------
-- Two scans of the same lines
-----------------------------------------------------------------------------------------

/-- A scan whose table holds more strings resolves all that another one does. -/
structure LosesNothing (mark : String) (lines : List String) (segments richer : List Segment)
    : Prop where
  labels
    : (Replacement.scanned mark segments).resolution.map Prod.fst
      ⊆ (Replacement.scanned mark richer).resolution.map Prod.fst
  counts
    : CountsGrow (Replacement.scanned mark segments).stats (Replacement.scanned mark richer).stats
  unmatched
    : (Replacement.scanned mark richer).stats.unmatched
      ≤ (Replacement.scanned mark segments).stats.unmatched
  /-- Both outputs hold the input lines in order, among lines that define symbols. -/
  source
    : (Segments.outputLines segments).filterMap OutputLine.source? = lines
      ∧ (Segments.outputLines richer).filterMap OutputLine.source? = lines
  output
    : (Segments.outputLines segments).map (OutputLine.text mark)
        = (Replacement.scanned mark segments).lines
      ∧ (Segments.outputLines richer).map (OutputLine.text mark)
        = (Replacement.scanned mark richer).lines
  /-- Every input line that is an annotation in the first output is one in the second. -/
  annotations
    : List.Forall₂ StaysAnnotated (OutputLine.fromInput (Segments.outputLines segments))
        (OutputLine.fromInput (Segments.outputLines richer))

namespace Scan

/-- Segments of the same lines lose nothing if ROM holds more. The fewer blocks are unmatched the
more are resolved, since there are as many blocks in both.
-/
theorem losesNothing {lines : List String} {segments richer : List Segment} (mark : String)
    (success : Scan.segments table lines = .ok segments)
    (succeeds : Scan.segments other lines = .ok richer)
    (alike : List.Forall₂ (Segment.Alike table other) segments richer)
    (keys : table.strings ⊆ other.strings)
    : LosesNothing mark lines segments richer := by
  have grow : List.Forall₂ SegmentGrows segments richer := alike.imp fun _ _ same => same.grows keys
  have counts := countsGrow_of_grows grow
  exact {
    labels := labels_of_grows grow
    counts
    unmatched := by
      have blocks := (sameBlocks_of_alike alike).blocks
      have total := counts.totalResolved
      simp only [Replacement.scanned]
      omega
    source := by
      rw [Segments.source_outputLines, Segments.source_outputLines]
      exact ⟨source_segments success, source_segments succeeds⟩
    output := ⟨Segments.text_outputLines mark segments, Segments.text_outputLines mark richer⟩
    annotations := staysAnnotated_of_grows grow
  }

/-- Two scans of the same lines, whatever their tables hold: the same fault ends both, or both find
the same blocks, and if the second table has all strings of the first, nothing is lost. Line by
line, both go the same way.
-/
theorem scan_in_two_tables (table other : Rom.Table) (options : Options) (lines : List String)
    : (∃ fault,
          Scan.segments table lines = .error fault ∧ Scan.segments other lines = .error fault)
      ∨ ∃ segments matching,
          Scan.segments table lines = .ok segments
          ∧ Scan.segments other lines = .ok matching
          ∧ SameBlocks (Replacement.scanned options.comment segments).stats
              (Replacement.scanned options.comment matching).stats
          ∧ (table.strings ⊆ other.strings
            → LosesNothing options.comment lines segments matching) := by
  have alike := outcomes_alike table other lines
  generalize first : Scan.segments table lines = outcome at alike
  generalize second : Scan.segments other lines = ending at alike
  cases alike with
  | @error fault => exact .inl ⟨fault, rfl, by rw [Error.behind_zero]⟩
  | @ok segments matching alike =>
      exact .inr ⟨segments, matching, rfl, rfl, sameBlocks_of_alike alike,
        losesNothing options.comment first second alike⟩

/-- With two more strings in ROM, a tail is found whole and an unmatched literal is resolved. -/
theorem scan_in_two_tables_more_strings
    : let table := Rom.Table.ofImage [104, 105, 0] 4096
      let other := Rom.Table.ofImage [104, 105, 0, 105, 0, 120, 0] 0
      let lines :=
        ["\t.section\t.rodata", ".LC0:", "\t.string\t\"i\"", ".LC1:", "\t.string\t\"x\"",
          "\t.text"]
      table.strings ⊆ other.strings
      ∧ ∃ segments richer,
          Scan.segments table lines = .ok segments
          ∧ Scan.segments other lines = .ok richer
          ∧ (Replacement.scanned "@" segments).stats
            = { suffixMatches := 1, unmatched := 1, bytesSaved := 2 }
          ∧ (Replacement.scanned "@" richer).stats = { exactMatches := 2, bytesSaved := 4 }
          ∧ LosesNothing "@" lines segments richer := by
  intro table other lines
  have keys : table.strings ⊆ other.strings := by
    have listed : table.chunks.map Rom.Chunk.bytes ⊆ other.chunks.map Rom.Chunk.bytes := by
      decide +kernel
    intro data member
    simp only [Rom.Table.strings, Rom.distinct_eq_eraseDups, List.mem_eraseDups] at member ⊢
    exact listed member
  have counts : (Scan.segments table lines).toOption.map Segments.stats
      = some { suffixMatches := 1, unmatched := 1, bytesSaved := 2 } := by
    decide +kernel
  have better : (Scan.segments other lines).toOption.map Segments.stats
      = some { exactMatches := 2, bytesSaved := 4 } := by
    decide +kernel
  refine ⟨keys, ?_⟩
  obtain ⟨segments, success, counted⟩ := exists_ok counts
  obtain ⟨richer, succeeds, recounted⟩ := exists_ok better
  rcases scan_in_two_tables table other {} lines
    with ⟨fault, fails, -⟩ | ⟨own, matching, found, matched, -, grows⟩
  · rw [success] at fails
    cases fails
  · rw [success] at found
    rw [succeeds] at matched
    cases found
    cases matched
    exact ⟨segments, richer, success, succeeds, counted, recounted, grows keys⟩

end Scan

end RomStrings
