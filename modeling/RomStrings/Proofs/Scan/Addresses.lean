import RomStrings.Proofs.Rom.Image
import RomStrings.Proofs.Scan.Layout
import RomStrings.Replacement

/-!
Every address is right. A block that is taken from ROM stands at an address where ROM holds exactly
the bytes that the block stored, its definitions give that address, and a label is listed with the
address of the last such block.
-/

namespace RomStrings

-----------------------------------------------------------------------------------------
-- Labels with their addresses
-----------------------------------------------------------------------------------------

namespace Resolution

variable {resolution : Resolution} {label : String} {address : Address}

theorem labels_insert (resolution : Resolution) (label : String) (address : Address)
    : (resolution.insert label address).map Prod.fst
      = if label ∈ resolution.map Prod.fst then resolution.map Prod.fst
        else resolution.map Prod.fst ++ [label] := by
  induction resolution with
  | nil => simp [insert]
  | cons pair rest ih =>
      obtain ⟨other, old⟩ := pair
      by_cases same : other = label
      · simp [insert, same]
      · have apart : label ≠ other := fun h => same h.symm
        simp only [insert, if_neg same, List.map_cons, ih, List.mem_cons, apart, false_or]
        split <;> rfl

/-- No label is listed twice. -/
def Unique (resolution : Resolution) : Prop :=
  (resolution.map Prod.fst).Nodup

theorem Unique.insert (unique : resolution.Unique) (label : String) (address : Address)
    : (resolution.insert label address).Unique := by
  rw [Unique, labels_insert]
  split
  next => exact unique
  next absent =>
    refine List.nodup_append.mpr ⟨unique, by simp, ?_⟩
    intro other known last member
    rw [List.mem_singleton.mp member]
    exact fun same => absent (same ▸ known)

/-- The pair given last is listed, and so are the pairs of other labels, by induction on the pairs
listed before.
-/
theorem mem_insert_iff (unique : resolution.Unique) {pair : String × Address}
    : pair ∈ resolution.insert label address
      ↔ pair = (label, address) ∨ pair.1 ≠ label ∧ pair ∈ resolution := by
  induction resolution with
  | nil => simp [insert]
  | cons head rest ih =>
      obtain ⟨other, old⟩ := head
      obtain ⟨fresh, unique⟩ := List.nodup_cons.mp unique
      by_cases same : other = label
      · subst same
        simp only [insert, if_true, List.mem_cons]
        constructor
        · intro given
          rcases given with rfl | member
          · exact .inl rfl
          · have known : pair.1 ∈ rest.map Prod.fst := List.mem_map_of_mem member
            exact .inr ⟨fun same => fresh (same ▸ known), .inr member⟩
        · intro given
          rcases given with rfl | ⟨apart, rfl | member⟩
          · exact .inl rfl
          · exact absurd rfl apart
          · exact .inr member
      · simp only [insert, if_neg same, List.mem_cons, ih unique]
        constructor
        · intro given
          rcases given with rfl | rfl | ⟨apart, member⟩
          · exact .inr ⟨same, .inl rfl⟩
          · exact .inl rfl
          · exact .inr ⟨apart, .inr member⟩
        · intro given
          rcases given with rfl | ⟨apart, rfl | member⟩
          · exact .inr (.inl rfl)
          · exact .inl rfl
          · exact .inr (.inr ⟨apart, member⟩)

/-- Labels that are given addresses are listed, by induction on the pairs given. -/
theorem insertAll_eq_nil_iff {pairs : List (String × Address)}
    : resolution.insertAll pairs = [] ↔ resolution = [] ∧ pairs = [] := by
  induction pairs generalizing resolution with
  | nil => simp [insertAll]
  | cons pair rest ih =>
      have listed : resolution.insert pair.1 pair.2 ≠ [] := by
        cases resolution with
        | nil => simp [insert]
        | cons head tail =>
            simp only [insert]
            split <;> simp
      rw [insertAll, List.foldl_cons]
      refine ih.trans ?_
      simp [listed]

end Resolution

/-- Segments that resolve no label are those without a resolved block. -/
theorem resolution_eq_nil_iff {segments : List Segment}
    : Segments.resolution segments = []
      ↔ ∀ segment ∈ segments, segment.isResolved = false := by
  rw [Segments.resolution, Resolution.ofPairs, Resolution.insertAll_eq_nil_iff]
  simp only [true_and, List.filterMap_eq_nil_iff]
  refine forall₂_congr fun segment _ => ?_
  cases segment <;> simp [Segment.resolution?, Segment.isResolved]

/-- The last of the segments that resolves the label gives it the address. -/
def LastResolved (label : String) (address : Address) (segments : List Segment) : Prop :=
  ∃ before block found after,
    segments = before ++ .resolved block found :: after
    ∧ block.label = label
    ∧ found.address = address
    ∧ ∀ later place, .resolved later place ∈ after → later.label ≠ label

/-- No segment resolves the label. -/
def NoneResolved (label : String) (segments : List Segment) : Prop :=
  ∀ block found, .resolved block found ∈ segments → block.label ≠ label

section Last

variable {label : String} {address : Address} {segment : Segment} {rest : List Segment}

/-- The last segment of a list is its head or the last one of the rest. -/
theorem lastResolved_cons
    : LastResolved label address (segment :: rest)
      ↔ LastResolved label address rest
        ∨ (segment.resolution? = some (label, address) ∧ NoneResolved label rest) := by
  constructor
  · intro given
    obtain ⟨before, block, found, after, whole, labelled, placed, last⟩ := given
    cases before with
    | nil =>
        cases whole
        exact .inr ⟨by simp [Segment.resolution?, labelled, placed], last⟩
    | cons head before =>
        cases whole
        exact .inl ⟨before, block, found, after, rfl, labelled, placed, last⟩
  · intro given
    rcases given with ⟨before, block, found, after, rfl, labelled, placed, last⟩ | ⟨resolves, last⟩
    · exact ⟨segment :: before, block, found, after, rfl, labelled, placed, last⟩
    · cases segment with
      | resolved block found =>
          cases resolves
          exact ⟨[], block, found, rest, rfl, rfl, rfl, last⟩
      | copied _ | anchored _ _ | aborted _ _ | unmatched _ => cases resolves

theorem noneResolved_cons
    : NoneResolved label (segment :: rest)
      ↔ (∀ place, segment.resolution? ≠ some (label, place)) ∧ NoneResolved label rest := by
  constructor
  · intro none
    refine ⟨?_, fun block found member => none block found (List.mem_cons_of_mem _ member)⟩
    cases segment with
    | resolved block found =>
        intro place same
        cases same
        exact none block found (by simp) rfl
    | copied _ | anchored _ _ | aborted _ _ | unmatched _ => exact fun _ same => nomatch same
  · rintro ⟨head, tail⟩ block found member
    rcases List.mem_cons.mp member with rfl | member
    · rintro rfl
      exact head found.address rfl
    · exact tail block found member

end Last

/-- A label that was listed before stays with its address unless a segment resolves it, and then it
has the address that the last one gives, by induction on the segments.
-/
theorem mem_insertAll_iff {segments : List Segment} {resolution : Resolution}
    (unique : resolution.Unique) {label : String} {address : Address}
    : (label, address) ∈ resolution.insertAll (segments.filterMap Segment.resolution?)
      ↔ LastResolved label address segments
        ∨ (NoneResolved label segments ∧ (label, address) ∈ resolution) := by
  induction segments generalizing resolution with
  | nil => simp [LastResolved, NoneResolved, Resolution.insertAll]
  | cons segment rest ih =>
      rw [lastResolved_cons, noneResolved_cons]
      cases resolves : segment.resolution? with
      | none =>
          rw [List.filterMap_cons_none resolves, ih unique]
          simp
      | some pair =>
          obtain ⟨other, place⟩ := pair
          have apart : (∀ given, some (other, place) ≠ some (label, given)) ↔ label ≠ other := by
            constructor
            · rintro none rfl
              exact none place rfl
            · intro apart given same
              cases same
              exact apart rfl
          rw [List.filterMap_cons_some resolves, Resolution.insertAll, List.foldl_cons]
          have later := ih (unique.insert other place)
          rw [Resolution.mem_insert_iff unique] at later
          rw [apart]
          refine later.trans ?_
          constructor
          · intro given
            rcases given with last | ⟨none, given | ⟨apart, member⟩⟩
            · exact .inl (.inl last)
            · exact .inl (.inr ⟨congrArg some given.symm, none⟩)
            · exact .inr ⟨⟨apart, none⟩, member⟩
          · intro given
            rcases given with (last | ⟨given, none⟩) | ⟨⟨apart, none⟩, member⟩
            · exact .inl last
            · exact .inr ⟨none, .inl (Option.some.inj given).symm⟩
            · exact .inr ⟨none, .inr ⟨apart, member⟩⟩

/-- A label is listed with the address that the last segment gives which resolves it. -/
theorem mem_resolution_iff {segments : List Segment} {label : String} {address : Address}
    : (label, address) ∈ Segments.resolution segments ↔ LastResolved label address segments := by
  have unique : Resolution.Unique [] := List.nodup_nil
  rw [Segments.resolution, Resolution.ofPairs, mem_insertAll_iff unique]
  simp

-----------------------------------------------------------------------------------------
-- Blocks in ROM
-----------------------------------------------------------------------------------------

/-- The image, mapped at the base, holds the block at the address found, and what is written in
place of the block says so.
-/
structure InRom (image : Bytes) (base : Nat) (mark : String) (block : Block) (found : Rom.Match)
    : Prop where
  /-- The block's payload lines store a string, and the image holds it at the address. -/
  held
    : ∃ raw,
        Stores block.lines raw ∧ Rom.HeldAt image base found.address raw ∧ Rom.IsString raw
  /-- A function's name is no tail of a longer string. -/
  whole : block.kind ≠ .literal → Rom.StringAt image base found.address
  /-- The label stands on one of the lines. -/
  label : ∃ line ∈ block.lines, Assembly.label? line = some block.label
  /-- The anchor is defined on one of the lines. -/
  anchor
    : ∀ anchor,
        block.anchor = some anchor
        → ∃ line ∈ block.lines, Assembly.anchorDefinition? line = some anchor
  /-- Behind the annotated lines, the anchor and the label are defined as the address. -/
  written
    : (Segment.resolved block found).output mark
      = block.lines.map (fun line => mark ++ " " ++ line)
        ++ (block.anchor.toList ++ [block.label]).map fun symbol =>
            symbol ++ " = " ++ Address.text found.address

/-- A block that a layout takes from ROM is there, by cases on its kind. -/
theorem Scan.Resolves.inRom {image : Bytes} {base : Nat} {region : Scan.Region} {block : Block}
    {found : Rom.Match}
    (resolves : Scan.Resolves (Rom.Table.ofImage image base) region block found) (mark : String)
    : InRom image base mark block found := by
  cases resolves with
  | @literal literal _ collected matched =>
      obtain ⟨held, isString⟩ := Rom.matchLiteral_sound matched
      exact {
        held := ⟨literal.bytes, collected.stored, held, isString⟩
        whole := fun other => absurd rfl other
        label := ⟨literal.labelLine, by simp [Literal.block, Literal.lines], collected.labels⟩
        anchor := nofun
        written := rfl
      }
  | @object object _ anchor symbol bytes _ collected stage matched =>
      obtain ⟨held, isString, starts⟩ := Rom.matchExact_sound matched
      have stores := collected.stored
      rw [stage] at stores
      exact {
        held := ⟨bytes, stores, held, isString⟩
        whole := fun _ => starts
        label := collected.label (by rw [stage]; rfl)
        anchor := fun name same => collected.anchor (by rw [stage]; exact same)
        written := rfl
      }

/-- What a scan resolves is in ROM, and what it writes and lists gives the right addresses. -/
structure ResolvesSoundly (image : Bytes) (base : Nat) (mark : String) (lines : List String)
    (segments : List Segment) (scanned : Replacement)
    : Prop where
  /-- The segments are the input, cut into consecutive runs of lines. -/
  source : segments.flatMap Segment.source = lines
  /-- The output is what is written of the segments, in order. -/
  output : scanned.lines = segments.flatMap (Segment.output mark)
  /-- Every block that is resolved is in ROM. -/
  blocks : ∀ block found, .resolved block found ∈ segments → InRom image base mark block found
  /-- A label is listed with the address of the last resolved block that has it. -/
  labels
    : ∀ label address,
        (label, address) ∈ scanned.resolution ↔ LastResolved label address segments

/-- A scan that succeeds resolves soundly, whatever the image, its base and the lines. Its layout
has every resolved block collected from lines that store what was looked up, and the table has no
string but those that the image holds.
-/
theorem scan_resolves_soundly (image : Bytes) (base : Nat) (options : Options)
    {lines : List String} {segments : List Segment}
    (success : Scan.segments (Rom.Table.ofImage image base) lines = .ok segments)
    : ResolvesSoundly image base options.comment lines segments
        (Replacement.scanned options.comment segments) := by
  refine {
    source := Scan.source_segments success
    output := rfl
    blocks := ?_
    labels := fun _ _ => mem_resolution_iff
  }
  intro block found member
  obtain ⟨before, after, rfl⟩ := List.append_of_mem member
  exact (Scan.resolves_of_segments success).inRom options.comment

/-- A literal that is the tail of a ROM string, and a function's name that is a whole one. -/
theorem scan_resolves_soundly_tail_and_name
    : let table := Rom.Table.ofImage [72, 105, 0, 104, 105, 0] 4096
      let lines :=
        ["\t.section\t.rodata", ".LC0:", "\t.ascii\t\"i\"", "\t.ascii\t\"\\000\"",
          "\t.section\t.rodata.__func__.1,\"a\"", "\t.type\tf, %object", "f:",
          "\t.ascii\t\"hi\\000\"", "\t.text"]
      ∃ segments,
        Scan.segments table lines = .ok segments
        ∧ (Replacement.scanned "@" segments).resolution = [(".LC0", 4097), ("f", 4099)]
        ∧ ResolvesSoundly [72, 105, 0, 104, 105, 0] 4096 "@" lines segments
            (Replacement.scanned "@" segments) := by
  refine Scan.exists_segments
    (fun _ success => scan_resolves_soundly [72, 105, 0, 104, 105, 0] 4096 {} success) ?_
  decide +kernel

end RomStrings
