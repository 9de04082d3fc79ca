import RomStrings.Proofs.Passes
import RomStrings.Proofs.Scan.Alike

/-!
The same image at another place. Where the image is mapped decides nothing but the addresses that
are written: the same strings are found, the same labels are resolved, and every address is further
on by as much as the image is.
-/

namespace RomStrings

-----------------------------------------------------------------------------------------
-- Matches in an image further on
-----------------------------------------------------------------------------------------

namespace Rom

def Match.moved (shift : Nat) (found : Match) : Match :=
  { found with address := found.address + shift }

namespace Table

variable (image : Bytes) (base shift : Nat) (data : Bytes)

theorem lookup_ofImage_add
    : (ofImage image (base + shift)).lookup data
      = ((ofImage image base).lookup data).map fun address : Address =>
          address + (shift : Int) := by
  have moved (chunk : Chunk)
      : (ofImage image (base + shift)).addressAt chunk.offset
        = (ofImage image base).addressAt chunk.offset + (shift : Int) := by
    change ((base + shift + chunk.offset : Nat) : Int) = (base + chunk.offset : Nat) + (shift : Int)
    omega
  simp only [lookup, moved, Option.map_map, Function.comp_def]
  rfl

theorem matchExact_ofImage_add
    : (ofImage image (base + shift)).matchExact data
      = ((ofImage image base).matchExact data).map (Match.moved shift) := by
  simp only [matchExact, lookup_ofImage_add, Option.map_map]
  rfl

/-- The same longer string is found, since that is up to the strings of the image alone. -/
theorem matchSuffix_ofImage_add
    : (ofImage image (base + shift)).matchSuffix data
      = ((ofImage image base).matchSuffix data).map (Match.moved shift) := by
  have chunks : (ofImage image (base + shift)).chunks = (ofImage image base).chunks := rfl
  simp only [matchSuffix, findSuffix, chunks]
  split
  · rfl
  · cases (ofImage image base).chunks.find? (endsWith data) with
    | none => rfl
    | some chunk =>
        simp only [Option.bind_eq_bind, Option.bind_some, lookup_ofImage_add]
        cases (ofImage image base).lookup chunk.bytes with
        | none => rfl
        | some address =>
            have apart := Int.add_right_comm address shift (chunk.bytes.length - data.length : Nat)
            simp only [Option.map_some, Option.bind_some, Option.pure_def, Match.moved,
              SuffixMatch.address, apart]

theorem matchLiteral_ofImage_add
    : (ofImage image (base + shift)).matchLiteral data
      = ((ofImage image base).matchLiteral data).map (Match.moved shift) := by
  simp only [matchLiteral, matchExact_ofImage_add, matchSuffix_ofImage_add]
  cases (ofImage image base).matchExact data <;> rfl

end Table

end Rom

/-- A block is found further on, or it is found in neither place. -/
theorem Block.find_ofImage_add (image : Bytes) (base shift : Nat) (block : Block)
    : block.find (Rom.Table.ofImage image (base + shift))
      = (block.find (Rom.Table.ofImage image base)).map (Rom.Match.moved shift) := by
  simp only [Block.find]
  cases block.kind with
  | literal => exact Rom.Table.matchLiteral_ofImage_add image base shift block.bytes
  | function anchor => exact Rom.Table.matchExact_ofImage_add image base shift block.bytes

-----------------------------------------------------------------------------------------
-- Addresses further on
-----------------------------------------------------------------------------------------

namespace Resolution

/-- The same labels, with addresses further on. -/
def moved (shift : Nat) (resolution : Resolution) : Resolution :=
  resolution.map fun pair => (pair.1, pair.2 + shift)

variable {shift : Nat}

theorem insert_moved (resolution : Resolution) (label : String) (address : Address)
    : (resolution.moved shift).insert label (address + shift)
      = (resolution.insert label address).moved shift := by
  induction resolution with
  | nil => rfl
  | cons pair rest ih =>
      simp only [moved, List.map_cons, insert] at ih ⊢
      split
      · simp
      · rw [List.map_cons, ih]

theorem insertAll_moved (resolution : Resolution) (pairs : List (String × Address))
    : (resolution.moved shift).insertAll (moved shift pairs)
      = (resolution.insertAll pairs).moved shift := by
  induction pairs generalizing resolution with
  | nil => rfl
  | cons pair rest ih =>
      have tail : moved shift (pair :: rest) = (pair.1, pair.2 + shift) :: moved shift rest := rfl
      rw [tail, insertAll_cons, insertAll_cons, insert_moved, ih]

theorem find?_moved (resolution : Resolution) (label : String)
    : (resolution.moved shift).find? label
      = (resolution.find? label).map fun address : Address => address + (shift : Int) := by
  induction resolution with
  | nil => rfl
  | cons pair rest ih =>
      rw [find?] at ih ⊢
      rw [find?, moved, List.map_cons, List.lookup_cons, List.lookup_cons]
      cases label == pair.1 with
      | true => rfl
      | false => exact ih

end Resolution

/-- The same line, with the address that it defines further on. -/
def OutputLine.moved (shift : Nat) : OutputLine → OutputLine
  | .anchor symbol address => .anchor symbol (address + shift)
  | .label symbol address => .label symbol (address + shift)
  | line => line

/-- A segment against that of the same lines where the image is further on. -/
structure Segment.MovesBy (shift : Nat) (segment own : Segment) : Prop where
  lines : own.outputLines = segment.outputLines.map (OutputLine.moved shift)
  resolution
    : own.resolution? = segment.resolution?.map fun pair => (pair.1, pair.2 + (shift : Int))
  stats : own.stats = segment.stats

/-- Only a resolved block shows where the image is, by cases on what becomes of a block. -/
theorem Segment.Alike.movesBy {image : Bytes} {base shift : Nat} {segment own : Segment}
    (alike
      : Segment.Alike (Rom.Table.ofImage image base) (Rom.Table.ofImage image (base + shift))
          segment own)
    : MovesBy shift segment own := by
  have copied (lines : List String)
      : lines.map OutputLine.copied
        = (lines.map OutputLine.copied).map (OutputLine.moved shift) := by
    rw [List.map_map]
    rfl
  cases alike with
  | copied | anchored => exact ⟨rfl, rfl, rfl⟩
  | @aborted object _ _ => exact ⟨copied object.lines, rfl, rfl⟩
  | @block block count =>
      have numbered
          : Block.find { block with number := count } (Rom.Table.ofImage image (base + shift))
            = block.find (Rom.Table.ofImage image (base + shift)) :=
        rfl
      simp only [Segment.ofBlock, numbered, Block.find_ofImage_add]
      cases block.find (Rom.Table.ofImage image base) with
      | none => exact ⟨copied block.lines, rfl, rfl⟩
      | some found =>
          refine ⟨?_, rfl, rfl⟩
          simp [Segment.outputLines, OutputLine.moved, Rom.Match.moved, Function.comp_def,
            Block.anchor]

namespace Segments

variable {shift : Nat} {segments own : List Segment}

theorem outputLines_of_movesBy (move : List.Forall₂ (Segment.MovesBy shift) segments own)
    : outputLines own = (outputLines segments).map (OutputLine.moved shift) := by
  induction move with
  | nil => rfl
  | cons head _ ih =>
      simp only [outputLines, List.flatMap_cons, List.map_append, head.lines] at ih ⊢
      rw [ih]

theorem stats_of_movesBy (move : List.Forall₂ (Segment.MovesBy shift) segments own)
    : stats own = stats segments := by
  induction move with
  | nil => rfl
  | cons head _ ih => rw [stats_cons, stats_cons, head.stats, ih]

theorem resolution_of_movesBy (move : List.Forall₂ (Segment.MovesBy shift) segments own)
    : resolution own = (resolution segments).moved shift := by
  have pairs
      : own.filterMap Segment.resolution?
        = Resolution.moved shift (segments.filterMap Segment.resolution?) := by
    induction move with
    | nil => rfl
    | @cons segment _ _ _ head _ ih =>
        rw [List.filterMap_cons, head.resolution, List.filterMap_cons, ih]
        cases segment.resolution? <;> rfl
  rw [resolution, resolution, Resolution.ofPairs, Resolution.ofPairs, pairs,
    ← Resolution.insertAll_moved]
  rfl

end Segments

-----------------------------------------------------------------------------------------
-- Lines of both outputs
-----------------------------------------------------------------------------------------

/-- An address that is not negative, in lowercase hexadecimal behind `0x`. -/
def hexText (place : Nat) : String :=
  "0x" ++ String.ofList (Nat.toDigits 16 place)

/-- A line that the scan writes, with what it is in the outputs of the two places. Only definitions
and resolved references differ, by the address that they give.
-/
inductive Relocated (shift : Nat) (mark : String) (resolution : Resolution)
    : OutputLine → String → String → Prop
  | copied {line} (other : ∀ label ∈ resolution.map Prod.fst, line ≠ "\t.word\t" ++ label)
    : Relocated shift mark resolution (.copied line) line line
  | reference {label} {place : Nat} (listed : (label, (place : Address)) ∈ resolution)
    : Relocated shift mark resolution (.copied ("\t.word\t" ++ label))
        ("\t.word\t" ++ hexText place ++ "\t" ++ mark ++ " " ++ label)
        ("\t.word\t" ++ hexText (place + shift) ++ "\t" ++ mark ++ " " ++ label)
  | annotated {line}
    : Relocated shift mark resolution (.annotated line) (mark ++ " " ++ line)
        (mark ++ " " ++ line)
  | anchor {symbol} (place : Nat)
    : Relocated shift mark resolution (.anchor symbol place) (symbol ++ " = " ++ hexText place)
        (symbol ++ " = " ++ hexText (place + shift))
  | label {symbol} (place : Nat)
    : Relocated shift mark resolution (.label symbol place) (symbol ++ " = " ++ hexText place)
        (symbol ++ " = " ++ hexText (place + shift))

namespace Reference

variable {shift : Nat} {mark line : String} {resolution : Resolution}

/-- A reference that is resolved gets the address further on. -/
theorem resolve?_moved_eq_some {label : String} {address : Address}
    (refers : Assembly.wordReference? line = some label)
    (known : resolution.find? label = some address)
    : resolve? mark (resolution.moved shift) line
      = some (resolvedLine mark label (address + (shift : Int))) := by
  refine resolve?_eq_some_iff.mpr ⟨label, _, refers, ?_, rfl⟩
  rw [Resolution.find?_moved, known]
  rfl

theorem isSome_resolve?_moved
    : (resolve? mark (resolution.moved shift) line).isSome
      = (resolve? mark resolution line).isSome := by
  simp only [resolve?, Resolution.find?_moved]
  cases Assembly.wordReference? line with
  | none => rfl
  | some label =>
      simp only [Option.bind_eq_bind, Option.bind_some]
      cases resolution.find? label <;> rfl

end Reference

section Outputs

variable {image : Bytes} {base : Nat} {lines : List String} {segments : List Segment}

/-- What is found in ROM is not below address zero. -/
theorem exists_place_of_resolved {block : Block} {found : Rom.Match}
    (success : Scan.segments (Rom.Table.ofImage image base) lines = .ok segments)
    (member : .resolved block found ∈ segments)
    : ∃ place : Nat, found.address = place := by
  obtain ⟨before, after, rfl⟩ := List.append_of_mem member
  obtain ⟨raw, -, held, -⟩ := ((Scan.resolves_of_segments success).inRom "@").held
  have above := held.above
  exact Int.eq_ofNat_of_zero_le (by omega)

theorem exists_place_of_listed {label : String} {address : Address}
    (success : Scan.segments (Rom.Table.ofImage image base) lines = .ok segments)
    (listed : (label, address) ∈ Segments.resolution segments)
    : ∃ place : Nat, address = place := by
  obtain ⟨before, block, found, after, split, -, rfl, -⟩ := mem_resolution_iff.mp listed
  have member : .resolved block found ∈ segments := by simp [split]
  exact exists_place_of_resolved success member

/-- Every definition that is written gives the address of a resolved block. -/
theorem exists_place_of_defined {symbol : String} {address : Address}
    (success : Scan.segments (Rom.Table.ofImage image base) lines = .ok segments)
    (defined
      : .anchor symbol address ∈ Segments.outputLines segments
        ∨ .label symbol address ∈ Segments.outputLines segments)
    : ∃ place : Nat, address = place := by
  have written
      : ∃ segment ∈ segments,
          .anchor symbol address ∈ segment.outputLines
          ∨ .label symbol address ∈ segment.outputLines := by
    rcases defined with member | member
    · obtain ⟨segment, known, inside⟩ := List.mem_flatMap.mp member
      exact ⟨segment, known, .inl inside⟩
    · obtain ⟨segment, known, inside⟩ := List.mem_flatMap.mp member
      exact ⟨segment, known, .inr inside⟩
  obtain ⟨segment, known, inside⟩ := written
  cases segment with
  | copied _ | anchored _ _ | aborted _ _ | unmatched _ =>
      simp [Segment.outputLines] at inside
  | resolved block found =>
      obtain ⟨place, same⟩ := exists_place_of_resolved success known
      refine ⟨place, ?_⟩
      rcases inside with inside | inside
      · simp only [Segment.outputLines, List.mem_append, List.mem_map, List.mem_singleton,
          reduceCtorEq, and_false, exists_false, false_or, or_false, OutputLine.anchor.injEq]
          at inside
        obtain ⟨_, -, -, rfl⟩ := inside
        exact same
      · have resolves := Segment.label_mem_outputLines.mp inside
        cases resolves
        exact same

/-- A written line is replaced alike in both places, by cases on where it comes from. A copied line
refers to a resolved label in both or in neither.
-/
theorem relocated_resolve {text : String} {options : Options} (shift : Nat)
    (success
      : Scan.segments (Rom.Table.ofImage image base)
          (Replacement.linesOf (Text.frame text.toList)) = .ok segments)
    {line : OutputLine} (written : line ∈ Segments.outputLines segments)
    : Relocated shift options.comment (Segments.resolution segments) line
        (Reference.resolve options.comment (Segments.resolution segments)
          (line.text options.comment))
        (Reference.resolve options.comment ((Segments.resolution segments).moved shift)
          ((line.moved shift).text options.comment)) := by
  cases Scan.writes_of_mem success written with
  | @copied own read =>
      simp only [OutputLine.moved, OutputLine.text, Reference.resolve]
      cases found : Reference.resolve? options.comment (Segments.resolution segments) own with
      | none =>
          have still
              : Reference.resolve? options.comment ((Segments.resolution segments).moved shift) own
                = none := by
            rw [← Option.not_isSome_iff_eq_none, Reference.isSome_resolve?_moved, found]
            simp
          rw [still]
          exact .copied (ne_reference_of_resolve? success found)
      | some new =>
          have unique : (Segments.resolution segments).Unique := Resolution.unique_ofPairs _
          obtain ⟨label, address, refers, known, rfl⟩ := Reference.resolve?_eq_some_iff.mp found
          have unbroken := (Replacement.isLine_linesOf text own read).feed
          obtain rfl := Assembly.eq_of_wordReference? unbroken refers
          have listed := (Resolution.find?_eq_some_iff unique).mp known
          obtain ⟨place, rfl⟩ := exists_place_of_listed success listed
          rw [Reference.resolve?_moved_eq_some refers known, Option.getD_some, Option.getD_some,
            Reference.resolvedLine_eq, Reference.resolvedLine_eq]
          exact .reference listed
  | annotated _ _ =>
      simp only [OutputLine.moved, OutputLine.text, Reference.resolve_annotation]
      exact .annotated
  | anchor own =>
      obtain ⟨place, rfl⟩ := exists_place_of_defined success (.inl written)
      simp only [OutputLine.moved, OutputLine.text, Reference.resolve_definition own.isSymbol]
      exact .anchor place
  | label own =>
      obtain ⟨place, rfl⟩ := exists_place_of_defined success (.inr written)
      simp only [OutputLine.moved, OutputLine.text, Reference.resolve_definition own.isSymbol]
      exact .label place

/-- A written line refers to a resolved label in both places or in neither. -/
theorem isSome_resolve?_written {shift : Nat} {options : Options} {line : OutputLine}
    (success : Scan.segments (Rom.Table.ofImage image base) lines = .ok segments)
    (written : line ∈ Segments.outputLines segments)
    : (Reference.resolve? options.comment ((Segments.resolution segments).moved shift)
          ((line.moved shift).text options.comment)).isSome
      = (Reference.resolve? options.comment (Segments.resolution segments)
          (line.text options.comment)).isSome := by
  rw [Reference.isSome_resolve?_moved]
  cases Scan.writes_of_mem success written with
  | copied _ | annotated _ _ => rfl
  | anchor own | label own =>
      simp only [OutputLine.moved, OutputLine.text, Reference.resolve?,
        Assembly.wordReference?_definition own.isSymbol]

end Outputs

-----------------------------------------------------------------------------------------
-- Both outputs
-----------------------------------------------------------------------------------------

namespace Replacement

/-- What replaces a text where the image is further on, against what replaces it at first. The
segments are those of the first scan.
-/
structure MovesBy (shift : Nat) (mark : String) (lines : List String) (segments : List Segment)
    (first second : Replacement)
    : Prop where
  stats : second.stats = first.stats
  /-- The same labels in the same order. -/
  resolution
    : second.resolution = first.resolution.map fun pair => (pair.1, pair.2 + (shift : Int))
  /-- The lines that the scan writes, before references are resolved. -/
  output
    : (Segments.outputLines segments).map (OutputLine.text mark) = (scanned mark segments).lines
  source : (Segments.outputLines segments).filterMap OutputLine.source? = lines
  height : second.lines.length = first.lines.length
  /-- Both outputs, line by line. -/
  lines
    : List.Forall₂ (fun line pair => Relocated shift mark first.resolution line pair.1 pair.2)
        (Segments.outputLines segments) (first.lines.zip second.lines)

/-- Segments that move give replacements that do. Their lines are those written, each with its
reference resolved.
-/
theorem movesBy_ofSegments {image : Bytes} {base shift : Nat} {options : Options} {text : String}
    {segments own : List Segment}
    (success
      : Scan.segments (Rom.Table.ofImage image base) (linesOf (Text.frame text.toList))
        = .ok segments)
    (move : List.Forall₂ (Segment.MovesBy shift) segments own)
    : MovesBy shift options.comment (linesOf (Text.frame text.toList)) segments
        (ofSegments options.comment segments) (ofSegments options.comment own) := by
  have first := lines_ofSegments_written options.comment segments
  have second
      : (ofSegments options.comment own).lines
        = (Segments.outputLines segments).map fun line =>
            Reference.resolve options.comment ((Segments.resolution segments).moved shift)
              ((line.moved shift).text options.comment) := by
    rw [lines_ofSegments_written, Segments.outputLines_of_movesBy move,
      Segments.resolution_of_movesBy move, List.map_map]
    rfl
  have count
      : ((scanned options.comment own).references options.comment).count
        = ((scanned options.comment segments).references options.comment).count := by
    simp only [references, scanned, Reference.resolveAll, ← Segments.text_outputLines,
      Segments.outputLines_of_movesBy move, Segments.resolution_of_movesBy move,
      List.map_map, List.countP_map]
    refine List.countP_congr fun line written => ?_
    exact Bool.eq_iff_iff.mp (isSome_resolve?_written success written)
  exact {
    stats := by
      have counts : (scanned options.comment own).stats = (scanned options.comment segments).stats :=
        Segments.stats_of_movesBy move
      simp only [ofSegments, withReferences, counts, count]
    resolution := Segments.resolution_of_movesBy move
    output := Segments.text_outputLines options.comment segments
    source := by rw [Segments.source_outputLines, Scan.source_segments success]
    height := by rw [first, second, List.length_map, List.length_map]
    lines := by
      rw [first, second, List.zip_map', List.forall₂_map_right_iff, List.forall₂_same]
      exact fun line written => relocated_resolve shift success written
  }

/-- A text is replaced alike wherever the image is mapped. It is at fault in both places, with the
same fault, or in neither, and then what replaces it moves with the image.
-/
theorem replacement_moves_with_image (image : Bytes) (base shift : Nat) (options : Options)
    (text : String)
    : (∃ fault,
          ofText (Rom.Table.ofImage image base) options text = .error fault
          ∧ ofText (Rom.Table.ofImage image (base + shift)) options text = .error fault)
      ∨ ∃ segments first second,
          Scan.segments (Rom.Table.ofImage image base) (linesOf (Text.frame text.toList))
            = .ok segments
          ∧ ofText (Rom.Table.ofImage image base) options text
            = .ok (first.text (Text.frame text.toList), first)
          ∧ ofText (Rom.Table.ofImage image (base + shift)) options text
            = .ok (second.text (Text.frame text.toList), second)
          ∧ MovesBy shift options.comment (linesOf (Text.frame text.toList)) segments first
              second := by
  have alike := Scan.outcomes_alike (Rom.Table.ofImage image base)
    (Rom.Table.ofImage image (base + shift)) (linesOf (Text.frame text.toList))
  rw [ofText_eq_map, ofText_eq_map]
  generalize scan : Scan.segments (Rom.Table.ofImage image base) _ = outcome at alike ⊢
  generalize Scan.segments (Rom.Table.ofImage image (base + shift)) _ = ending at alike ⊢
  cases alike with
  | @error fault => exact .inl ⟨fault, rfl, by rw [Scan.Error.behind_zero]; rfl⟩
  | ok alike =>
      exact .inr ⟨_, _, _, rfl, rfl, rfl,
        movesBy_ofSegments scan (alike.imp fun _ _ same => same.movesBy)⟩

end Replacement

end RomStrings
