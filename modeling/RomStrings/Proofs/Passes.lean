import RomStrings.Proofs.Labels
import RomStrings.Proofs.Repetition

/-!
The pass over references against the scan. It changes exactly those copied lines that store nothing
but the address of a resolved label, and what it writes there is what the scan defined last.
-/

namespace RomStrings

-----------------------------------------------------------------------------------------
-- Labels that are resolved
-----------------------------------------------------------------------------------------

/-- Before the pass over references, none has been counted. -/
theorem references_stats (segments : List Segment) : (Segments.stats segments).references = 0 := by
  have each (segment : Segment) : segment.stats.references = 0 := by
    cases segment with
    | copied _ | anchored _ _ | aborted _ _ | unmatched _ => rfl
    | resolved block found =>
        simp only [Segment.stats, Stats.ofMatch]
        split
        · rfl
        · split <;> rfl
  induction segments with
  | nil => rfl
  | cons segment rest ih =>
      have sum : (segment.stats + Segments.stats rest).references
          = segment.stats.references + (Segments.stats rest).references :=
        rfl
      rw [Segments.stats_cons, sum, each, ih]
      rfl

/-- The last of the written lines that defines the label gives it the address. -/
def LastDefined (label : String) (address : Address) (written : List OutputLine) : Prop :=
  ∃ before after,
    written = before ++ .label label address :: after
    ∧ ∀ place, .label label place ∉ after

/-- The last segment that resolves a label defines it last. -/
theorem LastResolved.lastDefined {label : String} {address : Address} {segments : List Segment}
    (last : LastResolved label address segments)
    : LastDefined label address (Segments.outputLines segments) := by
  obtain ⟨before, block, found, after, rfl, rfl, rfl, none⟩ := last
  refine ⟨Segments.outputLines before
      ++ (block.lines.map OutputLine.annotated
        ++ block.anchor.toList.map (OutputLine.anchor · found.address)),
    Segments.outputLines after, ?_, ?_⟩
  · simp [Segments.outputLines, Segment.outputLines]
  · intro place member
    obtain ⟨segment, later, written⟩ := List.mem_flatMap.mp member
    have resolves := Segment.label_mem_outputLines.mp written
    cases segment with
    | copied _ | anchored _ _ | aborted _ _ | unmatched _ => cases resolves
    | resolved other found =>
        simp only [Segment.resolution?, Option.some.injEq, Prod.mk.injEq] at resolves
        exact none other found later resolves.1

variable {table : Rom.Table}

/-- The labels that a scan resolves are symbols. -/
theorem isSymbol_of_listed {lines : List String} {segments : List Segment} {label : String}
    (success : Scan.segments table lines = .ok segments)
    (listed : label ∈ (Segments.resolution segments).map Prod.fst)
    : Assembly.IsSymbol label := by
  obtain ⟨⟨_, address⟩, member, rfl⟩ := List.mem_map.mp listed
  obtain ⟨before, block, found, after, rfl, rfl, -, -⟩ := mem_resolution_iff.mp member
  exact (Scan.resolves_of_segments success).isSymbol block.label (by simp [Assembly.movedSymbols])

/-- A line that no reference is resolved in refers to no resolved label. -/
theorem ne_reference_of_resolve? {lines : List String} {segments : List Segment}
    {mark line : String} (success : Scan.segments table lines = .ok segments)
    (kept : Reference.resolve? mark (Segments.resolution segments) line = none)
    : ∀ label ∈ (Segments.resolution segments).map Prod.fst, line ≠ "\t.word\t" ++ label := by
  rintro label listed rfl
  have unique : (Segments.resolution segments).Unique := Resolution.unique_ofPairs _
  have refers := Assembly.wordReference?_reference (isSymbol_of_listed success listed)
  obtain ⟨⟨_, address⟩, member, rfl⟩ := List.mem_map.mp listed
  have known := (Resolution.find?_eq_some_iff unique).mpr member
  rw [Reference.resolve?_eq_some_iff.mpr ⟨_, address, refers, known, rfl⟩] at kept
  cases kept

-----------------------------------------------------------------------------------------
-- Both passes
-----------------------------------------------------------------------------------------

/-- What the pass over references makes of a written line. The line stays as it is unless it is a
copied one that stores nothing but the address of a resolved label. Then it stores the address that
is defined last, and shows the label behind the mark.
-/
inductive Referred (mark : String) (labels : List String) (written : List OutputLine)
    : OutputLine → String → Prop
  | kept {line} (other : ∀ label ∈ labels, line.text mark ≠ "\t.word\t" ++ label)
    : Referred mark labels written line (line.text mark)
  | resolved {label address} (listed : label ∈ labels) (last : LastDefined label address written)
    : Referred mark labels written (.copied ("\t.word\t" ++ label))
        ("\t.word\t" ++ Address.text address ++ "\t" ++ mark ++ " " ++ label)

/-- Only input lines that are copied refer to anything: an annotation starts with its mark, and a
definition with its symbol.
-/
theorem copied_of_wordReference? {lines : List String} {segments : List Segment}
    {options : Options} {line : OutputLine} {label : String}
    (success : Scan.segments table lines = .ok segments)
    (written : line ∈ Segments.outputLines segments)
    (refers : Assembly.wordReference? (line.text options.comment) = some label)
    : ∃ own ∈ lines, line = .copied own := by
  cases Scan.writes_of_mem success written with
  | @copied own read => exact ⟨own, read, rfl⟩
  | annotated _ _ =>
      rw [OutputLine.text, Assembly.wordReference?_annotation] at refers
      cases refers
  | anchor own | label own =>
      rw [OutputLine.text, Assembly.wordReference?_definition own.isSymbol] at refers
      cases refers

/-- The pass over references keeps a written line or resolves it, by cases on whether it refers to a
resolved label.
-/
theorem referred_resolve {text : String} {segments : List Segment} {options : Options}
    (success : Scan.segments table (Replacement.linesOf (Text.frame text.toList)) = .ok segments)
    {line : OutputLine} (written : line ∈ Segments.outputLines segments)
    : Referred options.comment ((Segments.resolution segments).map Prod.fst)
        (Segments.outputLines segments) line
        (Reference.resolve options.comment (Segments.resolution segments)
          (line.text options.comment)) := by
  have unique : (Segments.resolution segments).Unique := Resolution.unique_ofPairs _
  rw [Reference.resolve]
  cases found : Reference.resolve? options.comment (Segments.resolution segments)
      (line.text options.comment) with
  | none => exact .kept (ne_reference_of_resolve? success found)
  | some new =>
      obtain ⟨label, address, refers, known, rfl⟩ := Reference.resolve?_eq_some_iff.mp found
      obtain ⟨own, read, rfl⟩ := copied_of_wordReference? success written refers
      have unbroken := (Replacement.isLine_linesOf text own read).feed
      obtain rfl := Assembly.eq_of_wordReference? unbroken refers
      have listed := (Resolution.find?_eq_some_iff unique).mp known
      have last := (mem_resolution_iff.mp listed).lastDefined
      rw [Option.getD_some, Reference.resolvedLine_eq]
      exact .resolved (List.mem_map.mpr ⟨_, listed, rfl⟩) last

/-- No line refers to a resolved label behind the pass over references. -/
theorem Referred.settled {mark : String} {labels : List String} {written : List OutputLine}
    {line : OutputLine} {final : String} (symbols : ∀ label ∈ labels, Assembly.IsSymbol label)
    (referred : Referred mark labels written line final)
    : ∀ label ∈ labels, final ≠ "\t.word\t" ++ label := by
  cases referred with
  | kept other => exact other
  | @resolved own address listed last =>
      intro label known same
      have refers := Assembly.wordReference?_reference (symbols label known)
      rw [← same, ← Reference.resolvedLine_eq, Assembly.wordReference?_resolvedLine] at refers
      cases refers

namespace Replacement

/-- What replaces a text, against the scan of its lines. -/
structure PassesAgree (mark : String) (lines : List String) (segments : List Segment)
    (final : Replacement)
    : Prop where
  /-- The lines that the scan writes. -/
  output
    : (Segments.outputLines segments).map (OutputLine.text mark) = (scanned mark segments).lines
  /-- The input lines among them are those of the input, in order. -/
  source : (Segments.outputLines segments).filterMap OutputLine.source? = lines
  resolution : final.resolution = (scanned mark segments).resolution
  /-- Line by line, only references to resolved labels change. -/
  lines
    : List.Forall₂
        (Referred mark (final.resolution.map Prod.fst) (Segments.outputLines segments))
        (Segments.outputLines segments) final.lines
  /-- None of them is left. -/
  settled
    : ∀ line ∈ final.lines,
        ∀ label ∈ final.resolution.map Prod.fst, line ≠ "\t.word\t" ++ label
  /-- As many lines change as are counted. -/
  references
    : final.stats.references
      = (((scanned mark segments).lines.zip final.lines).countP fun pair =>
          pair.1 ≠ pair.2 : Nat)

theorem lines_ofSegments_written (mark : String) (segments : List Segment)
    : (ofSegments mark segments).lines
      = (Segments.outputLines segments).map fun line =>
          Reference.resolve mark (Segments.resolution segments) (line.text mark) := by
  rw [lines_ofSegments, ← Segments.text_outputLines, List.map_map]
  rfl

/-- Both passes agree, whatever the table, the text and the mark. Every line written is kept or
resolved, one by one, and none that is resolved refers to anything after that.
-/
theorem passes_agree {table : Rom.Table} {options : Options} {text out : String}
    {replacement : Replacement} (success : ofText table options text = .ok (out, replacement))
    : ∃ segments,
        Scan.segments table (linesOf (Text.frame text.toList)) = .ok segments
        ∧ PassesAgree options.comment (linesOf (Text.frame text.toList)) segments replacement
        ∧ out = replacement.text (Text.frame text.toList) := by
  obtain ⟨segments, scanned, rfl, rfl⟩ := ofText_eq_ok_iff.mp success
  have final := lines_ofSegments_written options.comment segments
  have referred : List.Forall₂
      (Referred options.comment ((Segments.resolution segments).map Prod.fst)
        (Segments.outputLines segments))
      (Segments.outputLines segments) (ofSegments options.comment segments).lines := by
    rw [final, List.forall₂_map_right_iff, List.forall₂_same]
    exact fun line written => referred_resolve scanned written
  refine ⟨segments, scanned, ?_, rfl⟩
  exact {
    output := Segments.text_outputLines options.comment segments
    source := by rw [Segments.source_outputLines, Scan.source_segments scanned]
    resolution := rfl
    lines := referred
    settled := by
      intro line member
      rw [final] at member
      obtain ⟨own, written, rfl⟩ := List.mem_map.mp member
      exact (referred_resolve scanned written).settled fun label => isSymbol_of_listed scanned
    references := by
      have counted := Reference.countP_resolve options.comment (Segments.resolution segments)
        (Segments.output options.comment segments)
      have sum : (ofSegments options.comment segments).stats.references
          = (Segments.stats segments).references
            + (Reference.resolveAll options.comment (Segments.resolution segments)
                (Segments.output options.comment segments)).count :=
        rfl
      rw [sum, references_stats, Int.zero_add, ← counted]
      rfl
  }

/-- A label with references before and behind its definition, and one that is not resolved. -/
theorem passes_agree_before_and_behind
    : let table := Rom.Table.ofImage [104, 105, 0] 4096
      let options : Options := { comment := "//" }
      let text :=
        "\t.word\t.LC0\n\t.section\t.rodata\n.LC0:\n\t.string\t\"hi\"\n\t.text\n\t.word\t.LC0\n"
          ++ "\t.word\t.LC1\n"
      ∃ out replacement segments,
        ofText table options text = .ok (out, replacement)
        ∧ replacement.lines
          = ["\t.word\t0x1000\t// .LC0", "\t.section\t.rodata", "// .LC0:",
              "// \t.string\t\"hi\"", ".LC0 = 0x1000", "\t.text",
              "\t.word\t0x1000\t// .LC0", "\t.word\t.LC1"]
        ∧ replacement.stats.references = 2
        ∧ PassesAgree "//" (linesOf (Text.frame text.toList)) segments replacement := by
  intro table options text
  have computed
      : (ofText table options text).toOption.map (fun pair =>
          (pair.2.lines, pair.2.stats.references))
        = some
            (["\t.word\t0x1000\t// .LC0", "\t.section\t.rodata", "// .LC0:",
                "// \t.string\t\"hi\"", ".LC0 = 0x1000", "\t.text",
                "\t.word\t0x1000\t// .LC0", "\t.word\t.LC1"],
              2) := by
    decide +kernel
  obtain ⟨⟨out, replacement⟩, done, same⟩ := Scan.exists_ok computed
  obtain ⟨lines, references⟩ := Prod.mk.inj same
  obtain ⟨segments, -, agree, -⟩ := passes_agree done
  exact ⟨out, replacement, segments, done, lines, references, agree⟩

end Replacement

end RomStrings
