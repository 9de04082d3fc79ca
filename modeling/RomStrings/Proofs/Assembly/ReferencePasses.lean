import RomStrings.Proofs.Assembly.References
import RomStrings.Proofs.Labels

/-!
Passes over references, one after another. A resolved reference refers to nothing, so what a later
pass finds are the references left by the earlier ones, and two passes are one pass over the labels
of both.
-/

namespace RomStrings

-----------------------------------------------------------------------------------------
-- Labels of two resolutions
-----------------------------------------------------------------------------------------

namespace Resolution

/-- The labels of either resolution. One that both list has the address that the first gives it. -/
def union (first second : Resolution) : Resolution :=
  first ++ second.filter fun pair => (first.find? pair.1).isNone

theorem find?_eq_none_iff {resolution : Resolution} {label : String}
    : resolution.find? label = none ↔ label ∉ resolution.map Prod.fst := by
  rw [find?, List.lookup_eq_none_iff]
  constructor
  · intro apart listed
    obtain ⟨pair, member, rfl⟩ := List.mem_map.mp listed
    simpa using apart pair member
  · intro absent pair member
    have different : label ≠ pair.1 := fun same =>
      absent (List.mem_map.mpr ⟨pair, member, same.symm⟩)
    simpa using different

/-- A label is looked up among the pairs that a test on labels keeps, by induction on the pairs. -/
theorem find?_filter (resolution : Resolution) (keep : String → Bool) (label : String)
    : find? (resolution.filter fun pair => keep pair.1) label
      = if keep label then resolution.find? label else none := by
  induction resolution with
  | nil => simp [find?]
  | cons pair rest ih =>
      obtain ⟨other, address⟩ := pair
      simp only [find?] at ih ⊢
      by_cases same : label = other
      · subst same
        cases kept : keep label with
        | true => simp [kept]
        | false => simp [kept, ih]
      · have apart : (label == other) = false := by simpa using same
        cases kept : keep other with
        | true => simp [kept, List.lookup_cons, apart, ih]
        | false => simp [kept, List.lookup_cons, apart, ih]

theorem find?_union (first second : Resolution) (label : String)
    : (first.union second).find? label = (first.find? label).or (second.find? label) := by
  have behind := find?_filter second (fun label => (first.find? label).isNone) label
  have whole : (first.union second).find? label = (first.find? label).or
      (find? (second.filter fun pair => (first.find? pair.1).isNone) label) := by
    simp [find?, union, List.lookup_append]
  rw [whole, behind]
  cases found : first.find? label with
  | none => simp
  | some address => simp

/-- Where no label is in both, one that has an address in the first has none in the second. -/
theorem find?_of_disjoint {first second : Resolution} {label : String} {address : Address}
    (apart : (first.map Prod.fst).Disjoint (second.map Prod.fst))
    (known : first.find? label = some address)
    : second.find? label = none := by
  rw [find?_eq_none_iff]
  intro listed
  have absent : label ∉ first.map Prod.fst := fun member => apart member listed
  rw [find?_eq_none_iff.mpr absent] at known
  cases known

theorem find?_union_comm {first second : Resolution}
    (apart : (first.map Prod.fst).Disjoint (second.map Prod.fst)) (label : String)
    : (first.union second).find? label = (second.union first).find? label := by
  rw [find?_union, find?_union]
  cases known : first.find? label with
  | none => simp
  | some address => simp [find?_of_disjoint apart known]

theorem Unique.union {first second : Resolution} (one : first.Unique) (other : second.Unique)
    : (first.union second).Unique := by
  rw [Unique, Resolution.union, List.map_append, List.nodup_append]
  refine ⟨one, other.sublist (List.filter_sublist.map Prod.fst), ?_⟩
  intro label listed later member same
  obtain ⟨pair, kept, rfl⟩ := List.mem_map.mp member
  have absent := (List.mem_filter.mp kept).2
  rw [Option.isNone_iff_eq_none, find?_eq_none_iff] at absent
  exact absent (same ▸ listed)

end Resolution

-----------------------------------------------------------------------------------------
-- One line
-----------------------------------------------------------------------------------------

namespace Reference

open Assembly

/-- The line stores the address of the label and nothing else. One line feed may end it. -/
def RefersTo (line label : String) : Prop :=
  IsSymbol label ∧ (line = "\t.word\t" ++ label ∨ line = "\t.word\t" ++ label ++ "\n")

theorem wordReference?_eq_some_iff {line label : String}
    : wordReference? line = some label ↔ RefersTo line label := by
  constructor
  · intro found
    obtain ⟨rest, shape, ends⟩ := toList_of_wordReference? found
    refine ⟨isSymbol_of_wordReference? found, ?_⟩
    rcases ends with rfl | rfl
    · exact .inl (String.toList_inj.mp (by simp [shape]))
    · exact .inr (String.toList_inj.mp (by simp [shape]))
  · rintro ⟨isSymbol, rfl | rfl⟩
    · exact wordReference?_reference isSymbol
    · have stops : isSymbolChar '\n' = false := by decide
      have read : symbol? (label.toList ++ ['\n']) = some (label, ['\n']) :=
        symbol?_append isSymbol (by simpa using stops)
      simp [wordReference?, after?, read]

/-- What becomes of a line in a pass. -/
inductive Passed (mark : String) (resolution : Resolution) (line : String) : String → Prop
  | kept (other : ∀ label, RefersTo line label → label ∉ resolution.map Prod.fst)
    : Passed mark resolution line line
  | resolved {label : String} {address : Address} (refers : RefersTo line label)
    (known : resolution.find? label = some address)
    : Passed mark resolution line (resolvedLine mark label address)

theorem passed_resolve (mark : String) (resolution : Resolution) (line : String)
    : Passed mark resolution line (resolve mark resolution line) := by
  cases found : resolve? mark resolution line with
  | some new =>
      obtain ⟨label, address, refers, known, rfl⟩ := resolve?_eq_some_iff.mp found
      simpa [resolve, found] using Passed.resolved (wordReference?_eq_some_iff.mp refers) known
  | none =>
      have same : resolve mark resolution line = line := by simp [resolve, found]
      rw [same]
      refine .kept ?_
      intro label refers
      have read := wordReference?_eq_some_iff.mpr refers
      rw [← Resolution.find?_eq_none_iff]
      cases known : resolution.find? label with
      | none => rfl
      | some address => simp [resolve?, read, known] at found

/-- A line is resolved over the labels of two resolutions if it is over either. -/
theorem resolve?_union (mark : String) (first second : Resolution) (line : String)
    : resolve? mark (first.union second) line
      = (resolve? mark first line).or (resolve? mark second line) := by
  simp only [resolve?, Option.bind_eq_bind]
  cases wordReference? line with
  | none => rfl
  | some label =>
      simp only [Option.bind_some, Resolution.find?_union]
      cases first.find? label <;> rfl

/-- A second pass resolves a line that the first one left. -/
theorem resolve?_resolve (mark : String) (first second : Resolution) (line : String)
    : resolve? mark second (resolve mark first line)
      = if (resolve? mark first line).isSome then none else resolve? mark second line := by
  cases found : resolve? mark first line with
  | none => simp [resolve, found]
  | some new =>
      obtain ⟨label, address, -, -, rfl⟩ := resolve?_eq_some_iff.mp found
      have written : resolve mark first line = resolvedLine mark label address := by
        simp [resolve, found]
      simp [written, resolve?, wordReference?_resolvedLine]

theorem resolve_resolve (mark : String) (first second : Resolution) (line : String)
    : resolve mark second (resolve mark first line) = resolve mark (first.union second) line := by
  rw [resolve, resolve?_resolve]
  simp only [resolve, resolve?_union]
  cases resolve? mark first line <;> rfl

theorem resolve?_resolve_self (mark : String) (resolution : Resolution) (line : String)
    : resolve? mark resolution (resolve mark resolution line) = none := by
  rw [resolve?_resolve]
  cases resolve? mark resolution line <;> rfl

/-- A pass over other labels leaves what a line is resolved to. -/
theorem resolve?_resolve_of_disjoint {first second : Resolution}
    (apart : (first.map Prod.fst).Disjoint (second.map Prod.fst)) (mark line : String)
    : resolve? mark second (resolve mark first line) = resolve? mark second line := by
  rw [resolve?_resolve]
  cases found : resolve? mark first line with
  | none => rfl
  | some new =>
      obtain ⟨label, address, refers, known, -⟩ := resolve?_eq_some_iff.mp found
      simp [resolve?, refers, Resolution.find?_of_disjoint apart known]

-----------------------------------------------------------------------------------------
-- All lines
-----------------------------------------------------------------------------------------

/-- A pass depends on what labels are looked up to. -/
theorem resolveAll_congr {resolution other : Resolution}
    (same : ∀ label, resolution.find? label = other.find? label) (mark : String)
    (lines : List String)
    : resolveAll mark resolution lines = resolveAll mark other lines := by
  have each : resolve? mark resolution = resolve? mark other := by
    funext line
    simp only [resolve?, same]
  have line : resolve mark resolution = resolve mark other := by
    funext line
    simp only [resolve, each]
  simp only [resolveAll, each, line]

/-- Where no line has a reference to resolve, nothing changes. -/
theorem resolveAll_of_none {mark : String} {resolution : Resolution} {lines : List String}
    (none : ∀ line ∈ lines, resolve? mark resolution line = none)
    : resolveAll mark resolution lines = { lines, count := 0 } := by
  have kept : lines.map (resolve mark resolution) = lines.map id := by
    refine List.map_congr_left ?_
    intro line member
    simp [resolve, none line member]
  have uncounted : (lines.countP fun line => (resolve? mark resolution line).isSome) = 0 := by
    rw [List.countP_eq_zero]
    intro line member
    simp [none line member]
  rw [resolveAll, kept, uncounted, List.map_id]

theorem resolveAll_append (mark : String) (resolution : Resolution) (lines more : List String)
    : resolveAll mark resolution (lines ++ more)
      = { lines := (resolveAll mark resolution lines).lines
            ++ (resolveAll mark resolution more).lines
          count := (resolveAll mark resolution lines).count
            + (resolveAll mark resolution more).count } := by
  simp [resolveAll]

theorem lines_resolveAll_resolveAll (mark : String) (first second : Resolution)
    (lines : List String)
    : (resolveAll mark second (resolveAll mark first lines).lines).lines
      = (resolveAll mark (first.union second) lines).lines := by
  simp [resolveAll, resolve_resolve]

/-- Each line is counted in one pass of the two at most, by induction on the lines. -/
theorem count_resolveAll_resolveAll (mark : String) (first second : Resolution)
    (lines : List String)
    : (resolveAll mark first lines).count
        + (resolveAll mark second (resolveAll mark first lines).lines).count
      = (resolveAll mark (first.union second) lines).count := by
  simp only [resolveAll, List.countP_map, Function.comp_def, resolve?_resolve, resolve?_union]
  induction lines with
  | nil => rfl
  | cons line rest ih =>
      simp only [List.countP_cons, ← ih]
      cases resolve? mark first line <;> cases resolve? mark second line <;> simp <;> omega

theorem count_resolveAll_of_disjoint {first second : Resolution}
    (apart : (first.map Prod.fst).Disjoint (second.map Prod.fst)) (mark : String)
    (lines : List String)
    : (resolveAll mark second (resolveAll mark first lines).lines).count
      = (resolveAll mark second lines).count := by
  simp [resolveAll, List.countP_map, Function.comp_def, resolve?_resolve_of_disjoint apart]

/-- Lines become what each of them does in the pass, by induction on the lines. -/
theorem passed_resolveAll (mark : String) (resolution : Resolution) (lines : List String)
    : List.Forall₂ (Passed mark resolution) lines (resolveAll mark resolution lines).lines := by
  simp only [resolveAll]
  induction lines with
  | nil => exact .nil
  | cons line rest ih => exact .cons (passed_resolve mark resolution line) ih

/-- What passes over the lines with two resolutions have to do with each other. -/
structure PassAlgebra (mark : String) (first second : Resolution) (lines : List String) : Prop where
  lookup (label : String)
    : (first.union second).find? label = (first.find? label).or (second.find? label)
  unique (one : first.Unique) (other : second.Unique) : (first.union second).Unique
  /-- Two passes are one over the labels of both, where the first resolution decides. -/
  union : (resolveAll mark second (resolveAll mark first lines).lines).lines
    = (resolveAll mark (first.union second) lines).lines
  count : (resolveAll mark first lines).count
      + (resolveAll mark second (resolveAll mark first lines).lines).count
    = (resolveAll mark (first.union second) lines).count
  /-- A pass made once more changes nothing. -/
  again : resolveAll mark first (resolveAll mark first lines).lines
    = { lines := (resolveAll mark first lines).lines, count := 0 }
  /-- Passes over different labels may be made in either order, and each finds what it would find by
  itself.
  -/
  commute (apart : (first.map Prod.fst).Disjoint (second.map Prod.fst))
    : (resolveAll mark second (resolveAll mark first lines).lines).lines
        = (resolveAll mark first (resolveAll mark second lines).lines).lines
      ∧ (resolveAll mark second (resolveAll mark first lines).lines).count
        = (resolveAll mark second lines).count
      ∧ (resolveAll mark first (resolveAll mark second lines).lines).count
        = (resolveAll mark first lines).count
  passed : List.Forall₂ (Passed mark first) lines (resolveAll mark first lines).lines
  length : (resolveAll mark first lines).lines.length = lines.length
  append (more : List String)
    : resolveAll mark first (lines ++ more)
      = { lines := (resolveAll mark first lines).lines ++ (resolveAll mark first more).lines
          count := (resolveAll mark first lines).count + (resolveAll mark first more).count }
  none : resolveAll mark [] lines = { lines, count := 0 }

theorem passAlgebra (mark : String) (first second : Resolution) (lines : List String)
    : PassAlgebra mark first second lines where
  lookup := Resolution.find?_union first second
  unique one other := one.union other
  union := lines_resolveAll_resolveAll mark first second lines
  count := count_resolveAll_resolveAll mark first second lines
  again := by
    refine resolveAll_of_none ?_
    intro line member
    obtain ⟨own, -, rfl⟩ := List.mem_map.mp member
    exact resolve?_resolve_self mark first own
  commute apart := by
    refine ⟨?_, ?_, ?_⟩
    · rw [lines_resolveAll_resolveAll, lines_resolveAll_resolveAll,
        resolveAll_congr (Resolution.find?_union_comm apart)]
    · exact count_resolveAll_of_disjoint apart mark lines
    · exact count_resolveAll_of_disjoint apart.symm mark lines
  passed := passed_resolveAll mark first lines
  length := (passed_resolveAll mark first lines).length_eq.symm
  append := resolveAll_append mark first lines
  none := resolveAll_of_none fun line _ => by simp [resolve?, Resolution.find?]

/-- A mark that looks like a reference itself, a label that two resolutions list, and labels that
are in one of them only.
-/
theorem passAlgebra_of_shared_label
    : let mark := "\t.word\tb\n"
      let first : Resolution := [("a", 16)]
      let second : Resolution := [("a", 32), ("b", -1)]
      let other : Resolution := [("b", 8), ("c", 9)]
      let lines := ["\t.word\ta", "\t.word\tb\n", "\t.word\tab"]
      let written :=
        ["\t.word\t0x10\t\t.word\tb\n a", "\t.word\t0x-1\t\t.word\tb\n b", "\t.word\tab"]
      first.union second = [("a", 16), ("b", -1)]
        ∧ (resolveAll mark second (resolveAll mark first lines).lines).lines = written
        ∧ (resolveAll mark other (resolveAll mark first lines).lines).lines
          = (resolveAll mark first (resolveAll mark other lines).lines).lines := by
  intro mark first second other lines written
  have shared := passAlgebra mark first second lines
  have single : (resolveAll mark (first.union second) lines).lines = written := by
    decide +kernel
  have apart : (first.map Prod.fst).Disjoint (other.map Prod.fst) := by
    simp [first, other]
  exact
    ⟨by decide, shared.union.trans single, ((passAlgebra mark first other lines).commute apart).1⟩

end Reference

end RomStrings
