import RomStrings.Proofs.Scan.Addresses
import RomStrings.Proofs.Scan.Again
import RomStrings.Proofs.Scan.Characters
import RomStrings.Proofs.Text.Framing

/-!
Replacing a text twice. The output is replaced by itself, with no label resolved, exactly if no
stray literal is noticed in it.
-/

namespace RomStrings

open Text Assembly

-----------------------------------------------------------------------------------------
-- Unbroken output
-----------------------------------------------------------------------------------------

/-- A line of input or output is unbroken. -/
def IsLine (line : String) : Prop :=
  Unbroken line.toList

/-- The character breaks no line. -/
def breaksNoLine (c : Char) : Bool :=
  c ≠ '\n' && c ≠ '\r'

theorem isLine_iff {line : String} : IsLine line ↔ Within breaksNoLine line := by
  simp only [Within, breaksNoLine, Bool.and_eq_true, decide_eq_true_eq]
  constructor
  · intro unbroken c member
    exact ⟨fun same => unbroken.feed (same ▸ member), fun same => unbroken.carriage (same ▸ member)⟩
  · intro within
    exact ⟨fun member => (within _ member).1 rfl, fun member => (within _ member).2 rfl⟩

variable {table : Rom.Table}

/-- A mark breaks no line, since it holds no blank. -/
theorem Options.breaksNoLine_comment (options : Options)
    : Within breaksNoLine options.comment := by
  have accepted := options.accepted
  simp only [isCommentMark, Bool.and_eq_true, Bool.not_eq_true', List.any_eq_false] at accepted
  intro c member
  have plain : isBlank c ≠ true := accepted.2 c member
  have feed : c ≠ '\n' := fun same => plain (same ▸ by decide)
  have carriage : c ≠ '\r' := fun same => plain (same ▸ by decide)
  simp [breaksNoLine, feed, carriage]

/-- The lines of a replacement are unbroken if those of its input are. -/
theorem isLine_output {options : Options} {lines : List String} {segments : List Segment}
    (success : Scan.segments table lines = .ok segments) (input : ∀ line ∈ lines, IsLine line)
    {line : String} (member : line ∈ Segments.output options.comment segments)
    : IsLine (Reference.resolve options.comment (Segments.resolution segments) line) := by
  rw [← Segments.text_outputLines] at member
  obtain ⟨own, written, rfl⟩ := List.mem_map.mp member
  have surround : Within breaksNoLine surroundings := by decide +kernel
  have mark := options.breaksNoLine_comment
  rw [isLine_iff]
  refine within_resolve surround (.inl mark) ?_
  exact within_written surround success (fun line read => isLine_iff.mp (input line read))
    (.inl mark) written

-----------------------------------------------------------------------------------------
-- The last line
-----------------------------------------------------------------------------------------

/-- A segment is written with an empty last line only if it was read with one. -/
theorem getLast?_output_segment {mark : String} {segment : Segment}
    (empty : (segment.output mark).getLast? = some "")
    : segment.source.getLast? = some "" := by
  cases segment with
  | copied _ | anchored _ _ | aborted _ _ | unmatched _ => exact empty
  | resolved block found =>
      have defined : definition block.label found.address = "" := by
        simpa [Segment.output, replacement, movedSymbols] using empty
      have shape := toList_definition block.label found.address
      simp [defined] at shape

/-- What is written of segments ends in an empty line only if what was read does, by induction on
the segments.
-/
theorem getLast?_output {mark : String} {segments : List Segment}
    (empty : (Segments.output mark segments).getLast? = some "")
    : (Segments.source segments).getLast? = some "" := by
  induction segments with
  | nil => cases empty
  | cons segment rest ih =>
      rw [Scan.output_cons, List.getLast?_append] at empty
      rw [Scan.source_cons, List.getLast?_append]
      cases last : (Segments.output mark rest).getLast? with
      | none =>
          have height := Scan.length_output_segments mark rest
          rw [List.getLast?_eq_none_iff.mp last, List.length_nil] at height
          have nothing : Segments.source rest = [] := List.length_eq_zero_iff.mp (by omega)
          rw [last, Option.none_or] at empty
          rw [nothing, List.getLast?_nil, Option.none_or]
          exact getLast?_output_segment empty
      | some line =>
          rw [last, Option.some_or] at empty
          rw [ih (last.trans empty), Option.some_or]

theorem eq_empty_of_resolve {mark : String} {resolution : Resolution} {line : String}
    (empty : Reference.resolve mark resolution line = "")
    : line = "" := by
  simp only [Reference.resolve, Reference.resolve?] at empty
  cases found : wordReference? line with
  | none => simpa [found] using empty
  | some label =>
      cases known : resolution.find? label with
      | none => simpa [found, known] using empty
      | some address => simp [found, known, Reference.resolvedLine] at empty

-----------------------------------------------------------------------------------------
-- Replacing output
-----------------------------------------------------------------------------------------

namespace Replacement

/-- The segments of a text. -/
def segmentsOf (table : Rom.Table) (text : String) : List Segment :=
  (Scan.history table (linesOf (frame text.toList))).segments

/-- The text is replaced by itself, and no label is resolved. -/
def Settled (table : Rom.Table) (text : String) : Prop :=
  ∃ replacement,
    ofText table {} text = .ok (text, replacement) ∧ replacement.resolution = []

theorem ofText_eq_map (table : Rom.Table) (options : Options) (text : String)
    : ofText table options text
      = (Scan.segments table (linesOf (frame text.toList))).map fun segments =>
          ((ofSegments options.comment segments).text (frame text.toList),
            ofSegments options.comment segments) := by
  simp only [ofText, ofLines, ofHistory, Scan.segments]
  cases (Scan.history table (linesOf (frame text.toList))).outcome <;> rfl

theorem ofText_eq_ok_iff {options : Options} {text out : String} {replacement : Replacement}
    : ofText table options text = .ok (out, replacement)
      ↔ ∃ segments,
          Scan.segments table (linesOf (frame text.toList)) = .ok segments
          ∧ replacement = ofSegments options.comment segments
          ∧ out = replacement.text (frame text.toList) := by
  rw [ofText_eq_map]
  cases Scan.segments table (linesOf (frame text.toList)) with
  | error fault => simp [Except.map]
  | ok segments =>
      simp only [Except.map, Except.ok.injEq, Prod.mk.injEq, exists_eq_left']
      constructor
      · intro given
        obtain ⟨rfl, rfl⟩ := given
        exact ⟨rfl, rfl⟩
      · intro given
        obtain ⟨rfl, rfl⟩ := given
        exact ⟨rfl, rfl⟩

theorem linesOf_map_toList (ended : Bool) (lines : List String)
    : linesOf { lines := lines.map String.toList, ended } = lines := by
  simp [linesOf, Function.comp_def]

/-- Where the input does not end in a line break, its last line is not empty, and neither is the
last line of the output.
-/
theorem last_output {framed : Framed} {segments : List Segment} (proper : framed.Proper)
    (source : Segments.source segments = linesOf framed) (mark : String)
    (resolution : Resolution) (unended : framed.ended = false)
    : Segments.output mark segments ≠ []
      ∧ ((Segments.output mark segments).map (Reference.resolve mark resolution)).getLast?
        ≠ some "" := by
  obtain ⟨nonempty, last⟩ := proper.last unended
  constructor
  · intro none
    have height := Scan.length_output_segments mark segments
    rw [none, source, linesOf, List.length_map, List.length_nil] at height
    exact nonempty (List.length_eq_zero_iff.mp (by omega))
  · intro empty
    rw [List.getLast?_map] at empty
    obtain ⟨before, output, resolved⟩ := Option.map_eq_some_iff.mp empty
    rw [eq_empty_of_resolve resolved] at output
    have input := getLast?_output output
    rw [source, linesOf, List.getLast?_map] at input
    obtain ⟨line, known, same⟩ := Option.map_eq_some_iff.mp input
    have bare : line = [] := by simpa using congrArg String.toList same
    exact last (bare ▸ known)

theorem lines_ofSegments (mark : String) (segments : List Segment)
    : (ofSegments mark segments).lines
      = (Segments.output mark segments).map
          (Reference.resolve mark (Segments.resolution segments)) :=
  rfl

/-- Where nothing is resolved, all lines stay. -/
theorem lines_ofSegments_of_unresolved {segments : List Segment}
    (unresolved : ∀ segment ∈ segments, segment.isResolved = false) (mark : String)
    : (ofSegments mark segments).lines = Segments.source segments := by
  have none := resolution_eq_nil_iff.mpr unresolved
  have kept : Reference.resolve mark [] = id := by
    funext line
    simp [Reference.resolve, Reference.resolve?, Resolution.find?]
  rw [lines_ofSegments, none, kept, List.map_id, Scan.output_eq_source unresolved mark]

/-- The lines of a text are unbroken. -/
theorem isLine_linesOf (text : String) : ∀ line ∈ linesOf (frame text.toList), IsLine line := by
  intro line member
  obtain ⟨own, known, rfl⟩ := List.mem_map.mp member
  simpa [IsLine] using (proper_frame text.toList).unbroken own known

/-- The output of a text is taken apart into its lines, since these are unbroken and the last one is
no emptier than that of the input.
-/
theorem frame_output (options : Options) {text : String} {segments : List Segment}
    (success : Scan.segments table (linesOf (frame text.toList)) = .ok segments)
    : frame ((ofSegments options.comment segments).text (frame text.toList)).toList
      = { frame text.toList with
          lines := (ofSegments options.comment segments).lines.map String.toList } := by
  have proper := proper_frame text.toList
  have source := Scan.source_segments success
  rw [Replacement.text, String.toList_ofList, lines_ofSegments]
  refine frame_text { unbroken := ?_, last := ?_ }
  · intro line member
    obtain ⟨own, written, rfl⟩ := List.mem_map.mp member
    obtain ⟨before, output, rfl⟩ := List.mem_map.mp written
    exact isLine_output success (isLine_linesOf text) output
  · intro unended
    obtain ⟨nonempty, last⟩ :=
      last_output proper source options.comment (Segments.resolution segments) unended
    refine ⟨by simpa using nonempty, ?_⟩
    intro empty
    refine last ?_
    rw [List.getLast?_map] at empty
    obtain ⟨line, known, bare⟩ := Option.map_eq_some_iff.mp empty
    have same : line = "" := by simpa using bare
    exact same ▸ known

/-- A text is settled exactly if the scan of its lines is quiet. -/
theorem settled_iff_quiet {lines : List String} {text : String}
    (framed : linesOf (frame text.toList) = lines)
    (whole
      : String.ofList
          ({ frame text.toList with lines := lines.map String.toList } : Framed).text = text)
    : Settled table text ↔ Scan.Quiet table 0 .outside false lines := by
  rw [Scan.quiet_iff]
  constructor
  · intro given
    obtain ⟨replacement, done, none⟩ := given
    obtain ⟨segments, success, rfl, -⟩ := ofText_eq_ok_iff.mp done
    rw [framed] at success
    exact ⟨segments, success, resolution_eq_nil_iff.mp none⟩
  · intro given
    obtain ⟨segments, success, unresolved⟩ := given
    have none := resolution_eq_nil_iff.mpr unresolved
    have same : (ofSegments "@" segments).lines = lines := by
      rw [lines_ofSegments_of_unresolved unresolved, Scan.source_segments success]
    rw [← framed] at success
    refine ⟨_, ofText_eq_ok_iff.mpr ⟨segments, success, rfl, ?_⟩, none⟩
    rw [Replacement.text, same, whole]

/-- What replaces a text is settled exactly if no stray literal is noticed in it. The output is
taken apart into the lines written, and their scan is quiet exactly if there is no such literal.
-/
theorem settled_output_iff (image : Bytes) (base : Nat) {text out : String}
    {replacement : Replacement}
    (success : ofText (Rom.Table.ofImage image base) {} text = .ok (out, replacement))
    : Settled (Rom.Table.ofImage image base) out
      ↔ Scan.NoStray (Rom.Table.ofImage image base)
          (segmentsOf (Rom.Table.ofImage image base) text) := by
  obtain ⟨segments, scanned, rfl, rfl⟩ := ofText_eq_ok_iff.mp success
  have same : segmentsOf (Rom.Table.ofImage image base) text = segments :=
    Scan.segments_of_history scanned
  have nothing : (Rom.Table.ofImage image base).matchLiteral [] = none := by
    cases matched : (Rom.Table.ofImage image base).matchLiteral [] with
    | none => rfl
    | some found =>
        obtain ⟨-, own, impossible, -⟩ := Rom.matchLiteral_sound matched
        simp at impossible
  have framed := frame_output {} scanned
  have keeps : Scan.KeepsForms (Reference.resolve "@" (Segments.resolution segments)) :=
    resolve_eq_or_inert "@" _
  rw [same, ← Scan.quiet_output_iff keeps nothing scanned, ← lines_ofSegments]
  refine settled_iff_quiet ?_ ?_
  · rw [framed]
    exact linesOf_map_toList _ _
  · rw [framed]
    rfl

/-- A literal of a section that is read, which the output does not define again. -/
theorem settled_output_iff_of_literal
    : let table := Rom.Table.ofImage [104, 105, 0] 4096
      let text := "\t.section\t.rodata\n.LC0:\n\t.string\t\"hi\"\n\t.text"
      ∃ out replacement,
        ofText table {} text = .ok (out, replacement)
        ∧ replacement.resolution = [(".LC0", 4096)]
        ∧ (Settled table out ↔ Scan.NoStray table (segmentsOf table text)) := by
  intro table text
  have computed : (ofText table {} text).toOption.map (fun pair => pair.2.resolution)
      = some [(".LC0", 4096)] := by
    decide +kernel
  cases done : ofText table {} text with
  | error fault => simp [done, Except.toOption] at computed
  | ok pair =>
      rw [done] at computed
      exact ⟨pair.1, pair.2, rfl, Option.some.inj computed,
        settled_output_iff [104, 105, 0] 4096 done⟩

/-- A text with a stray literal. The section line of the function's name is annotated, so the label
behind that name is read once more in the section before it, and the second run resolves it.
-/
theorem not_settled_output
    : ¬∀ (image : Bytes) (base : Nat) (text out : String) (replacement : Replacement),
        ofText (Rom.Table.ofImage image base) {} text = .ok (out, replacement)
        → Settled (Rom.Table.ofImage image base) out := by
  intro settles
  let table := Rom.Table.ofImage [72, 105, 0] 4096
  let text :=
    "\t.section\t.rodata\n\t.section\t.rodata.__func__.1,\"a\"\n\t.type\tf, %object\nf:\n"
      ++ "\t.ascii\t\"Hi\\000\"\n.LC0:\n\t.ascii\t\"Hi\\000\"\n\t.text\n"
  let lines :=
    ["\t.section\t.rodata", "\t.section\t.rodata.__func__.1,\"a\"", "\t.type\tf, %object", "f:",
      "\t.ascii\t\"Hi\\000\"", ".LC0:", "\t.ascii\t\"Hi\\000\"", "\t.text"]
  have framed : linesOf (frame text.toList) = lines := by decide +kernel
  have again
      : ((Scan.segments table lines).toOption.bind fun segments =>
            (Scan.segments table (ofSegments "@" segments).lines).toOption).map
          Segments.resolution
        = some [(".LC0", 4096)] := by
    decide +kernel
  cases scanned : Scan.segments table lines with
  | error fault => simp [scanned, Except.toOption] at again
  | ok segments =>
      have first := framed.symm ▸ scanned
      obtain ⟨second, done, nothing⟩ :=
        settles _ _ text _ _ (ofText_eq_ok_iff.mpr ⟨segments, first, rfl, rfl⟩)
      obtain ⟨own, success, rfl, -⟩ := ofText_eq_ok_iff.mp done
      rw [frame_output {} first, linesOf_map_toList] at success
      have later : Scan.segments table (ofSegments "@" segments).lines = .ok own := success
      have given : Segments.resolution own = [(".LC0", 4096)] := by
        simpa [scanned, later, Except.toOption] using again
      exact List.cons_ne_nil _ _ (given.symm.trans nothing)

end Replacement

end RomStrings
