import Mathlib.Data.List.Induction
import RomStrings.Proofs.Scan.OutputLines

/-!
The sections that copied lines stand in. A copied line stands behind the same section line in the
output as in the input, but for the lines behind a function-name object that is taken from ROM. Its
section line is annotated with the rest of it, so these are left in the section before the object,
unless the line right behind it changes the section again.
-/

namespace RomStrings

open Assembly

-----------------------------------------------------------------------------------------
-- Section lines read and written
-----------------------------------------------------------------------------------------

namespace OutputLine

/-- The line may change the section where it is read, or where it is written. -/
def switches (line : OutputLine) : Bool :=
  line.source?.any isSectionSwitch || isSectionSwitch (line.text "@")

def isCopied : OutputLine → Bool
  | .copied _ => true
  | _ => false

@[simp] theorem switches_copied (line : String) : (copied line).switches = isSectionSwitch line := by
  simp [switches, text]

/-- An annotation is written without a form, so it may change the section as a line read only. -/
@[simp] theorem switches_annotated (line : String)
    : (annotated line).switches = isSectionSwitch line := by
  simp [switches, text, (inert_annotated line).isSectionSwitch]

/-- Whether the last line that may change the section is a copied one, behind one more line. -/
def keepsAfter (kept : Bool) (line : OutputLine) : Bool :=
  if line.switches then line.isCopied else kept

end OutputLine

/-- The nearest line before the next one that may change the section is the same in input and
output, and it is copied; or there is none in either.
-/
inductive KeepsSection (before : List OutputLine) : Prop
  | none (stays : ∀ line ∈ before, line.switches = false)
  | copied {earlier line since} (whole : before = earlier ++ .copied line :: since)
    (switches : isSectionSwitch line = true) (stays : ∀ other ∈ since, other.switches = false)

/-- Every copied line but section lines stands in the section that it stood in. -/
def KeepsSections (segments : List Segment) : Prop :=
  ∀ before line after,
    Segments.outputLines segments = before ++ .copied line :: after
    → isSectionSwitch line = false
    → KeepsSection before

/-- A line in a list is the last one, or it stands before the last one. -/
theorem eq_or_exists_of_snoc {α : Type} {before earlier since : List α} {line own : α}
    (whole : before ++ [line] = earlier ++ own :: since)
    : line = own ∨ ∃ others, before = earlier ++ own :: others ∧ since = others ++ [line] := by
  rcases List.eq_nil_or_concat since with rfl | ⟨others, last, rfl⟩
  · exact .inl (List.singleton_inj.mp (List.append_inj' whole rfl).2)
  · rw [List.concat_eq_append, ← List.cons_append, ← List.append_assoc] at whole
    obtain ⟨same, last⟩ := List.append_inj' whole rfl
    exact .inr ⟨others, same, by rw [List.concat_eq_append, ← last]⟩

section Snoc

variable {before : List OutputLine} {line : OutputLine}

/-- A line that may change the section decides by itself. -/
theorem keepsSection_of_switches (switches : line.switches = true)
    : KeepsSection (before ++ [line]) ↔ line.isCopied = true := by
  constructor
  · intro keeps
    cases keeps with
    | none stays => simp [stays line (by simp)] at switches
    | copied whole _ stays =>
        rcases eq_or_exists_of_snoc whole with rfl | ⟨others, -, rfl⟩
        · rfl
        · simp [stays line (by simp)] at switches
  · intro isCopied
    cases line with
    | copied own => exact .copied rfl (by simpa using switches) (List.forall_mem_nil _)
    | annotated _ | anchor _ _ | label _ _ => cases isCopied

theorem keepsSection_of_stays (stays : line.switches = false)
    : KeepsSection (before ++ [line]) ↔ KeepsSection before := by
  constructor
  · intro keeps
    cases keeps with
    | none all => exact .none fun other member => all other (by simp [member])
    | copied whole switches all =>
        rcases eq_or_exists_of_snoc whole with rfl | ⟨others, same, rfl⟩
        · simp [switches] at stays
        · exact .copied same switches fun other member => all other (by simp [member])
  · intro keeps
    cases keeps with
    | none all =>
        exact .none (List.forall_mem_append.mpr ⟨all, List.forall_mem_singleton.mpr stays⟩)
    | @copied earlier own since whole switches all =>
        refine @KeepsSection.copied _ earlier own (since ++ [line]) (by simp [whole]) switches ?_
        exact List.forall_mem_append.mpr ⟨all, List.forall_mem_singleton.mpr stays⟩

end Snoc

/-- The section can be followed line by line, by induction on the lines from the last one on. -/
theorem keepsSection_iff {before : List OutputLine}
    : KeepsSection before ↔ before.foldl OutputLine.keepsAfter true = true := by
  induction before using List.reverseRecOn with
  | nil => exact iff_of_true (.none (List.forall_mem_nil _)) rfl
  | append_singleton before line ih =>
      rw [List.foldl_append, List.foldl_cons, List.foldl_nil, OutputLine.keepsAfter]
      cases switches : line.switches with
      | true => simpa using keepsSection_of_switches switches
      | false => simpa [ih] using @keepsSection_of_stays before line switches

/-- Every copied line but section lines stands in its section, from lines on behind which the
section is kept or not.
-/
def KeptFrom : Bool → List OutputLine → Prop
  | _, [] => True
  | kept, line :: rest =>
      (∀ own, line = .copied own → isSectionSwitch own = false → kept = true)
      ∧ KeptFrom (line.keepsAfter kept) rest

/-- By induction on the lines to follow. -/
theorem keptFrom_iff {earlier lines : List OutputLine}
    : KeptFrom (earlier.foldl OutputLine.keepsAfter true) lines
      ↔ ∀ before line after,
          lines = before ++ .copied line :: after
          → isSectionSwitch line = false
          → KeepsSection (earlier ++ before) := by
  induction lines generalizing earlier with
  | nil => simp [KeptFrom]
  | cons first rest ih =>
      have next : first.keepsAfter (earlier.foldl OutputLine.keepsAfter true)
          = (earlier ++ [first]).foldl OutputLine.keepsAfter true := by
        simp
      rw [KeptFrom, next, ih, ← keepsSection_iff]
      constructor
      · rintro ⟨head, tail⟩ before line after whole stays
        cases before with
        | nil =>
            cases whole
            simpa using head line rfl stays
        | cons other before =>
            cases whole
            simpa using tail before line after rfl stays
      · intro keeps
        constructor
        · rintro own rfl stays
          simpa using keeps [] own rest rfl stays
        · intro before line after whole stays
          simpa using keeps (first :: before) line after (by simp [whole]) stays

theorem keepsSections_iff {segments : List Segment}
    : KeepsSections segments ↔ KeptFrom true (Segments.outputLines segments) := by
  have start := @keptFrom_iff [] (Segments.outputLines segments)
  simpa [KeepsSections] using start.symm

-----------------------------------------------------------------------------------------
-- Along lines of one kind
-----------------------------------------------------------------------------------------

section Along

variable {lines more : List OutputLine} {kept : Bool}

theorem keptFrom_append
    : KeptFrom kept (lines ++ more)
      ↔ KeptFrom kept lines ∧ KeptFrom (lines.foldl OutputLine.keepsAfter kept) more := by
  induction lines generalizing kept with
  | nil => simp [KeptFrom]
  | cons line rest ih => rw [List.cons_append, KeptFrom, KeptFrom, List.foldl_cons, ih, and_assoc]

theorem foldl_keepsAfter_of_stays (stays : ∀ line ∈ lines, line.switches = false)
    : lines.foldl OutputLine.keepsAfter kept = kept := by
  induction lines generalizing kept with
  | nil => rfl
  | cons line rest ih =>
      obtain ⟨head, others⟩ := List.forall_mem_cons.mp stays
      rw [List.foldl_cons, ih others, OutputLine.keepsAfter, head, if_neg (by simp)]

/-- Where nothing is copied, nothing is asked. -/
theorem keptFrom_of_not_copied (other : ∀ line ∈ lines, line.isCopied = false)
    : KeptFrom kept lines := by
  induction lines generalizing kept with
  | nil => trivial
  | cons line rest ih =>
      obtain ⟨head, others⟩ := List.forall_mem_cons.mp other
      exact ⟨fun own same => by simp [same, OutputLine.isCopied] at head, ih others⟩

/-- Where nothing is copied, a section that is lost stays lost. -/
theorem foldl_keepsAfter_of_not_copied (other : ∀ line ∈ lines, line.isCopied = false)
    : lines.foldl OutputLine.keepsAfter false = false := by
  induction lines with
  | nil => rfl
  | cons line rest ih =>
      obtain ⟨head, others⟩ := List.forall_mem_cons.mp other
      rw [List.foldl_cons, OutputLine.keepsAfter, head, ite_self, ih others]

/-- Copied lines stay in the section, which is that of input and output alike. -/
theorem keptFrom_copied (own : List String)
    : KeptFrom true (own.map OutputLine.copied)
      ∧ (own.map OutputLine.copied).foldl OutputLine.keepsAfter true = true := by
  induction own with
  | nil => exact ⟨trivial, rfl⟩
  | cons line rest ih =>
      have kept : (OutputLine.copied line).keepsAfter true = true := by
        simp [OutputLine.keepsAfter, OutputLine.isCopied]
      rw [List.map_cons, KeptFrom, List.foldl_cons, kept]
      exact ⟨⟨fun _ _ _ => rfl, ih.1⟩, ih.2⟩

/-- Copied lines that start with a section line bring the section back. -/
theorem keptFrom_copied_switch {line : String} (switches : isSectionSwitch line = true)
    (others : List String)
    : KeptFrom kept ((line :: others).map OutputLine.copied)
      ∧ ((line :: others).map OutputLine.copied).foldl OutputLine.keepsAfter kept = true := by
  have found : (OutputLine.copied line).keepsAfter kept = true := by
    simp [OutputLine.keepsAfter, switches, OutputLine.isCopied]
  rw [List.map_cons, KeptFrom, List.foldl_cons, found]
  refine ⟨⟨?_, (keptFrom_copied others).1⟩, (keptFrom_copied others).2⟩
  rintro own same stays
  cases same
  simp [switches] at stays

end Along

-----------------------------------------------------------------------------------------
-- Along the segments
-----------------------------------------------------------------------------------------

/-- The segment is a function-name object that is taken from ROM. -/
def Segment.isResolvedObject : Segment → Bool
  | .resolved block _ => block.kind ≠ .literal
  | _ => false

theorem Segment.isResolvedObject_of_not_resolved {segment : Segment}
    (kept : segment.isResolved = false)
    : segment.isResolvedObject = false := by
  cases segment with
  | resolved block found => cases kept
  | copied _ | anchored _ _ | aborted _ _ | unmatched _ => rfl

theorem Segment.not_copied_of_resolved (block : Block) (found : Rom.Match)
    : ∀ line ∈ (Segment.resolved block found).outputLines, line.isCopied = false := by
  intro line member
  simp only [outputLines, List.mem_append, List.mem_map, List.mem_singleton] at member
  rcases member with (⟨own, -, rfl⟩ | ⟨anchor, -, rfl⟩) | rfl <;> rfl

namespace Scan

variable {table : Rom.Table}

/-- The line right behind an object that is taken from ROM may change the section. -/
def SwitchesFollow (segments : List Segment) : Prop :=
  ∀ before segment after,
    segments = before ++ segment :: after
    → segment.isResolvedObject = true
    → (Segments.source after).head?.any isSectionSwitch = true

theorem switchesFollow_nil : SwitchesFollow [] := by
  intro before segment after whole
  simp at whole

theorem switchesFollow_cons {segment : Segment} {rest : List Segment}
    : SwitchesFollow (segment :: rest)
      ↔ (segment.isResolvedObject = true
          → (Segments.source rest).head?.any isSectionSwitch = true)
        ∧ SwitchesFollow rest := by
  constructor
  · intro follow
    refine ⟨follow [] segment rest rfl, fun before own after whole => ?_⟩
    exact follow (segment :: before) own after (by rw [whole, List.cons_append])
  · rintro ⟨head, tail⟩ before own after whole
    cases before with
    | nil =>
        cases whole
        exact head
    | cons first before =>
        cases whole
        exact tail before own after rfl

instance decidableSwitchesFollow : (segments : List Segment) → Decidable (SwitchesFollow segments)
  | [] => isTrue switchesFollow_nil
  | _ :: rest =>
      have := decidableSwitchesFollow rest
      decidable_of_iff' _ switchesFollow_cons

theorem switchesFollow_cons_of_other {segment : Segment} {rest : List Segment}
    (other : segment.isResolvedObject = false)
    : SwitchesFollow (segment :: rest) ↔ SwitchesFollow rest := by
  rw [switchesFollow_cons, other]
  exact and_iff_right nofun

/-- A literal leaves the section as it is, taken from ROM or not: it has no section line, and what
defines its label is none.
-/
theorem keptFrom_literal {literal : Literal} (collected : literal.Collected)
    : KeptFrom true (Segment.ofLiteral table literal).outputLines
      ∧ (Segment.ofLiteral table literal).outputLines.foldl OutputLine.keepsAfter true = true := by
  rcases ofLiteral_cases table literal with kept | ⟨found, resolved⟩
  · rw [Segment.outputLines_of_not_resolved kept]
    exact keptFrom_copied _
  · rw [resolved]
    refine ⟨keptFrom_of_not_copied (Segment.not_copied_of_resolved _ _), ?_⟩
    refine foldl_keepsAfter_of_stays fun line member => ?_
    have stays : ∀ own ∈ literal.lines, isSectionSwitch own = false := by
      refine List.forall_mem_cons.mpr ⟨collected.stays, fun own stored => ?_⟩
      obtain ⟨payload, stores⟩ :=
        Option.isSome_iff_exists.mp (isPayload_of_collected collected own stored)
      exact isSectionSwitch_of_payload? stores
    have lines : (Segment.resolved literal.block found).outputLines
        = literal.lines.map OutputLine.annotated ++ [.label literal.label found.address] := by
      simp [Segment.outputLines, Literal.block, Block.anchor]
    rw [lines] at member
    rcases List.mem_append.mp member with member | member
    · obtain ⟨own, known, rfl⟩ := List.mem_map.mp member
      simpa using stays own known
    · rw [List.mem_singleton.mp member, OutputLine.switches, OutputLine.text,
        isSectionSwitch_definition collected.labels, collected.stays]
      rfl

/-- An object that is taken from ROM asks for nothing and loses the section: its section line is an
annotation, and nothing behind that is copied.
-/
theorem keptFrom_resolved_object {object : FunctionBlock} (collected : object.Collected)
    {block : Block} (lines : block.lines = object.lines) (found : Rom.Match) (kept : Bool)
    : KeptFrom kept (Segment.resolved block found).outputLines
      ∧ (Segment.resolved block found).outputLines.foldl OutputLine.keepsAfter kept = false := by
  have other := Segment.not_copied_of_resolved block found
  refine ⟨keptFrom_of_not_copied other, ?_⟩
  obtain ⟨line, others, same, opens⟩ := collected.opening
  have shape : ∃ more,
      (Segment.resolved block found).outputLines = .annotated line :: more := by
    simp [Segment.outputLines, lines, same]
  obtain ⟨more, shape⟩ := shape
  rw [shape] at other ⊢
  have lost : (OutputLine.annotated line).keepsAfter kept = false := by
    simp [OutputLine.keepsAfter, isSectionSwitch_of_isFunctionSection opens, OutputLine.isCopied]
  rw [List.foldl_cons, lost]
  exact foldl_keepsAfter_of_not_copied (List.forall_mem_cons.mp other).2

/-- An object that is copied brings the section back with its section line. -/
theorem keptFrom_copied_object {object : FunctionBlock} (collected : object.Collected)
    (kept : Bool)
    : KeptFrom kept (object.lines.map OutputLine.copied)
      ∧ (object.lines.map OutputLine.copied).foldl OutputLine.keepsAfter kept = true := by
  obtain ⟨line, others, same, opens⟩ := collected.opening
  rw [same]
  exact keptFrom_copied_switch (isSectionSwitch_of_isFunctionSection opens) others

/-- The first line of an object may change the section. -/
theorem starts_object {object : FunctionBlock} (collected : object.Collected)
    (more : List String)
    : (object.lines ++ more).head?.all isSectionSwitch = true := by
  obtain ⟨line, others, same, opens⟩ := collected.opening
  simp [same, isSectionSwitch_of_isFunctionSection opens]

theorem keptFrom_cons {segment : Segment} {rest : List Segment} {kept : Bool}
    : KeptFrom kept (Segments.outputLines (segment :: rest))
      ↔ KeptFrom kept segment.outputLines
        ∧ KeptFrom (segment.outputLines.foldl OutputLine.keepsAfter kept)
            (Segments.outputLines rest) := by
  rw [Segments.outputLines, List.flatMap_cons]
  exact keptFrom_append

/-- Behind a segment that keeps its section or brings it back, only the later objects matter. -/
theorem keptFrom_cons_of_kept {segment : Segment} {rest : List Segment} {kept : Bool}
    (own
      : KeptFrom kept segment.outputLines
        ∧ segment.outputLines.foldl OutputLine.keepsAfter kept = true)
    (later : KeptFrom true (Segments.outputLines rest) ↔ SwitchesFollow rest)
    (first
      : kept = true
        ∨ (Segments.source (segment :: rest)).head?.all isSectionSwitch = true)
    (follow : SwitchesFollow (segment :: rest) ↔ SwitchesFollow rest)
    : KeptFrom kept (Segments.outputLines (segment :: rest))
      ↔ (kept = true ∨ (Segments.source (segment :: rest)).head?.all isSectionSwitch = true)
        ∧ SwitchesFollow (segment :: rest) := by
  rw [keptFrom_cons, own.2, later, follow]
  exact ⟨fun given => ⟨first, given.2⟩, fun given => ⟨own.1, given.2⟩⟩

/-- A copied line brings the section back if it is a section line, and else needs it kept. -/
theorem keptFrom_cons_copied {line : String} {rest : List Segment} {kept : Bool}
    (later
      : KeptFrom (kept || isSectionSwitch line) (Segments.outputLines rest)
        ↔ ((kept || isSectionSwitch line) = true
            ∨ (Segments.source rest).head?.all isSectionSwitch = true)
          ∧ SwitchesFollow rest)
    : KeptFrom kept (Segments.outputLines (.copied line :: rest))
      ↔ (kept = true
          ∨ (Segments.source (.copied line :: rest)).head?.all isSectionSwitch = true)
        ∧ SwitchesFollow (.copied line :: rest) := by
  have own : (Segment.copied line).outputLines = [.copied line] := rfl
  have after : (OutputLine.copied line).keepsAfter kept = (kept || isSectionSwitch line) := by
    cases switches : isSectionSwitch line <;>
      simp [OutputLine.keepsAfter, OutputLine.isCopied, switches]
  have asked : KeptFrom kept [.copied line] ↔ kept = true ∨ isSectionSwitch line = true := by
    cases kept <;> simp [KeptFrom]
  have first
      : (Segments.source (.copied line :: rest)).head?.all isSectionSwitch
        = isSectionSwitch line := by
    simp [Segment.source]
  rw [keptFrom_cons, own, asked, List.foldl_cons, List.foldl_nil, after, later, first,
    switchesFollow_cons_of_other rfl, Bool.or_eq_true]
  exact ⟨fun given => ⟨given.1, given.2.2⟩, fun given => ⟨given.1, .inl given.1, given.2⟩⟩

/-- Where segments are laid out, copied lines stand in their sections exactly if section lines
follow the objects taken from ROM; and where the section is lost already, one has to come first. By
induction on the layout, where a section of read-only data is never lost.
-/
theorem Laid.keptFrom_iff {region : Region} {segments : List Segment}
    (laid : Laid table region segments) {kept : Bool} (inside : region ≠ .outside → kept = true)
    : KeptFrom kept (Segments.outputLines segments)
      ↔ (kept = true ∨ (Segments.source segments).head?.all isSectionSwitch = true)
        ∧ SwitchesFollow segments := by
  induction laid generalizing kept with
  | nil => simp [Segments.outputLines, KeptFrom, SwitchesFollow]
  | @copied region line rest copies _ ih =>
      refine keptFrom_cons_copied (ih fun some => ?_)
      cases switches : isSectionSwitch line with
      | true => simp
      | false =>
          cases region with
          | outside => simp [Region.after, switches] at some
          | rodata anchored => simp [inside]
  | @anchored number line _ anchors _ ih =>
      obtain rfl := inside (by simp)
      refine keptFrom_cons_of_kept (keptFrom_copied [line]) ?_ (.inl rfl)
        (switchesFollow_cons_of_other rfl)
      simpa using ih fun _ => rfl
  | @literal literal _ _ collected _ _ _ ih =>
      obtain rfl := inside (by simp)
      refine keptFrom_cons_of_kept (keptFrom_literal collected) ?_ (.inl rfl) ?_
      · simpa using ih fun _ => rfl
      · refine switchesFollow_cons_of_other ?_
        rcases ofLiteral_cases table literal with kept | ⟨found, resolved⟩
        · exact Segment.isResolvedObject_of_not_resolved kept
        · rw [resolved]
          rfl
  | @completed _ _ anchor symbol bytes rest _ object collected follows _ _ ih =>
      have first : (Segments.source
            (Segment.ofBlock table (object.complete anchor symbol bytes) :: rest)).head?.all
          isSectionSwitch = true := by
        rw [source_cons, source_ofBlock]
        exact starts_object collected _
      rcases ofBlock_cases table (object.complete anchor symbol bytes)
        with ⟨unmatched, -⟩ | ⟨found, resolved⟩
      · rw [unmatched] at first ⊢
        refine keptFrom_cons_of_kept (keptFrom_copied_object collected kept) ?_ (.inr first)
          (switchesFollow_cons_of_other rfl)
        simpa using ih fun _ => rfl
      · rw [resolved] at first ⊢
        obtain ⟨asked, lost⟩ :=
          keptFrom_resolved_object collected (object.lines_complete anchor symbol bytes) found kept
        rw [keptFrom_cons, lost, ih fun some => absurd rfl some, switchesFollow_cons]
        constructor
        · rintro ⟨-, none | starts, later⟩
          · cases none
          · refine ⟨.inr first, fun _ => ?_, later⟩
            simpa [follows] using starts
        · rintro ⟨-, behind, later⟩
          have starts := behind rfl
          exact ⟨asked, .inr (by simpa [follows] using starts), later⟩
  | @aborted _ _ reason rest _ object collected follows _ _ ih =>
      have first : (Segments.source (.aborted object reason :: rest)).head?.all isSectionSwitch
          = true := by
        rw [source_cons]
        exact starts_object collected _
      refine keptFrom_cons_of_kept (keptFrom_copied_object collected kept) ?_ (.inr first)
        (switchesFollow_cons_of_other rfl)
      simpa using ih fun _ => rfl

/-- Every copied line but section lines stands in its section exactly if section lines follow the
objects taken from ROM, as no section is lost at the start.
-/
theorem keepsSections_iff_switchesFollow {lines : List String} {segments : List Segment}
    (success : Scan.segments table lines = .ok segments)
    : KeepsSections segments ↔ SwitchesFollow segments := by
  rw [keepsSections_iff, (laid_segments success).keptFrom_iff fun _ => rfl]
  exact and_iff_right (.inl rfl)

/-- What a scan writes, line by line, against its input, and where the copied lines of it stand. -/
structure StandsInSections (lines : List String) (segments : List Segment) : Prop where
  /-- The lines of the output, of which those from the input are the input, in order. -/
  output
    : (Segments.outputLines segments).map (OutputLine.text "@")
      = (Replacement.scanned "@" segments).lines
  source : (Segments.outputLines segments).filterMap OutputLine.source? = lines
  /-- All copied lines keep their sections exactly if a line that may change the section follows
  every function-name object that is taken from ROM. -/
  kept : KeepsSections segments ↔ SwitchesFollow segments

/-- The copied lines of a scan that succeeds keep their sections exactly if section lines follow the
objects taken from ROM. Along the layout, such an object loses the section, and a copied section
line brings it back; literals are neither.
-/
theorem keeps_sections_iff {lines : List String} {segments : List Segment}
    (success : Scan.segments table lines = .ok segments)
    : StandsInSections lines segments where
  output := Segments.text_outputLines "@" segments
  source := by rw [Segments.source_outputLines, source_segments success]
  kept := keepsSections_iff_switchesFollow success

/-- A literal and a function's name taken from ROM, the latter with a section line behind. -/
theorem keeps_sections_iff_of_name_and_text
    : let table := Rom.Table.ofImage [104, 105, 0] 4096
      let lines :=
        ["\t.section\t.rodata", ".LC0:", "\t.string\t\"hi\"", "\t.word\t1",
          "\t.section\t.rodata.__func__.1,\"a\"", "\t.type\tf, %object", "f:",
          "\t.ascii\t\"hi\\000\"", "\t.text", "main:"]
      ∃ segments,
        Scan.segments table lines = .ok segments
        ∧ ((Replacement.scanned "@" segments).lines, decide (SwitchesFollow segments))
          = (["\t.section\t.rodata", "@ .LC0:", "@ \t.string\t\"hi\"", ".LC0 = 0x1000",
                "\t.word\t1", "@ \t.section\t.rodata.__func__.1,\"a\"",
                "@ \t.type\tf, %object", "@ f:", "@ \t.ascii\t\"hi\\000\"", "f = 0x1000",
                "\t.text", "main:"],
              true)
        ∧ StandsInSections lines segments := by
  refine exists_segments (fun _ success => keeps_sections_iff success) ?_
  decide +kernel

/-- A word behind a function's name, in its section: once the name is taken from ROM, the word is
left in the text section before it.
-/
theorem not_keeps_sections
    : ¬∀ (image : Bytes) (base : Nat) (lines : List String) (segments : List Segment),
        Scan.segments (Rom.Table.ofImage image base) lines = .ok segments
        → KeepsSections segments := by
  intro keeps
  have computed
      : (Scan.segments (Rom.Table.ofImage [104, 105, 0] 4096)
            ["\t.text", "\t.section\t.rodata.__func__.1,\"a\"", "\t.type\tf, %object", "f:",
              "\t.ascii\t\"hi\\000\"", "\t.word\t1"]).toOption.map
          (fun segments => decide (SwitchesFollow segments))
        = some false := by
    decide +kernel
  obtain ⟨segments, success, lost⟩ := exists_ok computed
  have follow := (keepsSections_iff_switchesFollow success).mp (keeps _ _ _ _ success)
  exact of_decide_eq_false lost follow

end Scan

end RomStrings
