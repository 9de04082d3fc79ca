import Mathlib.Data.List.Induction
import RomStrings.Proofs.Scan.OpenBlocks
import RomStrings.Proofs.Scan.Outcome

/-!
The grammar of a function-name object, part by part. The scan reads line by line and remembers a
stage only, and yet it takes exactly the lines that make up an object and stops at the first line
that is no part of one.
-/

namespace RomStrings

open Assembly

-----------------------------------------------------------------------------------------
-- The grammar
-----------------------------------------------------------------------------------------

namespace ObjectGrammar

/-- Any number of alignment lines. -/
def Alignments (lines : List String) : Prop :=
  ∀ line ∈ lines, isAlign line = true

/-- Alignment, and perhaps an anchor in it. -/
inductive Opening : Option String → List String → Prop
  | plain {lines} (aligns : Alignments lines) : Opening none lines
  | anchored {before line behind anchor} (first : Alignments before)
    (defines : anchorDefinition? line = some anchor) (later : Alignments behind)
    : Opening (some anchor) (before ++ line :: behind)

/-- Alignment, and perhaps the symbol's size in it. -/
inductive Sizing (symbol : String) : List String → Prop
  | plain {lines} (aligns : Alignments lines) : Sizing symbol lines
  | sized {before line behind size} (first : Alignments before)
    (sizes : sizeOf? line = some (symbol, size)) (later : Alignments behind)
    : Sizing symbol (before ++ line :: behind)

/-- The part with the type: it gives the symbol, which may have an anchor before and a size behind.
-/
inductive Typed (anchor : Option String) (symbol : String) : List String → Prop
  | mk {before line behind} (opening : Opening anchor before)
    (types : typeOf? line = some (symbol, "object")) (sizing : Sizing symbol behind)
    : Typed anchor symbol (before ++ line :: behind)

/-- The part up to the symbol's label. A label that reads as alignment is alignment. -/
inductive Labelled (anchor : Option String) (symbol : String) : List String → Prop
  | mk {before line} (typed : Typed anchor symbol before) (unaligned : isAlign line = false)
    (labels : label? line = some symbol)
    : Labelled anchor symbol (before ++ [line])

/-- A whole object: one payload stands behind the label. -/
inductive Object (anchor : Option String) (symbol : String) (bytes : Bytes)
    : List String → Prop
  | mk {before line payload} (labelled : Labelled anchor symbol before)
    (stores : payload? line = some payload) (decodes : payload.bytes = .ok bytes)
    : Object anchor symbol bytes (before ++ [line])

/-- Every line stands where the grammar has one of its form, so far. -/
inductive Begins (lines : List String) : Prop
  | opening {anchor} (part : Opening anchor lines) : Begins lines
  | typed {anchor symbol} (part : Typed anchor symbol lines) : Begins lines
  | labelled {anchor symbol} (part : Labelled anchor symbol lines) : Begins lines
  | object {anchor symbol bytes} (part : Object anchor symbol bytes lines) : Begins lines

theorem Alignments.snoc {lines : List String} {line : String} (first : Alignments lines)
    (aligns : isAlign line = true)
    : Alignments (lines ++ [line]) := by
  simpa [Alignments, or_imp, forall_and] using ⟨first, aligns⟩

theorem alignments_snoc {lines : List String} {line : String}
    (aligns : Alignments (lines ++ [line]))
    : Alignments lines ∧ isAlign line = true := by
  simpa [Alignments, or_imp, forall_and] using aligns

/-- Before alignment the last line is the one in front of it, or the alignment is not over. -/
theorem snoc_of_alignments {before behind lines : List String} {mark line : String}
    (aligns : Alignments behind) (same : before ++ mark :: behind = lines ++ [line])
    : (before = lines ∧ mark = line ∧ behind = [])
      ∨ ∃ others,
          behind = others ++ [line]
          ∧ lines = before ++ mark :: others
          ∧ Alignments others
          ∧ isAlign line = true := by
  rcases List.eq_nil_or_concat behind with rfl | ⟨others, last, rfl⟩
  · obtain ⟨rfl, equal⟩ := List.append_inj' same rfl
    cases equal
    exact .inl ⟨rfl, rfl, rfl⟩
  · rw [List.concat_eq_append] at aligns same ⊢
    rw [← List.cons_append, ← List.append_assoc] at same
    obtain ⟨rfl, equal⟩ := List.append_inj' same rfl
    cases equal
    obtain ⟨first, aligns⟩ := alignments_snoc aligns
    exact .inr ⟨others, rfl, rfl, first, aligns⟩

end ObjectGrammar

-----------------------------------------------------------------------------------------
-- Lines that are accepted
-----------------------------------------------------------------------------------------

namespace FunctionStage

variable {number : Nat} {line : String} {stage next : FunctionStage}

/-- An alignment is accepted at any stage before the label, and at no other. -/
theorem advance_of_isAlign (aligns : isAlign line = true)
    (advances : stage.advance number line = .ok (.accept next))
    : next = stage ∧ stage.label? = none := by
  cases stage with
  | opened | anchored _ | typed _ _ | sized _ _ =>
      simp only [advance, alignedOr, aligns, if_true, Except.ok.injEq, Advance.accept.injEq]
        at advances
      exact ⟨advances.symm, rfl⟩
  | labelled anchor symbol =>
      have plain : payload? line = none := payload?_of_isDirective (by decide) aligns
      simp [advance, plain] at advances
  | filled anchor symbol bytes =>
      simp only [advance] at advances
      split at advances <;> cases advances

/-- The line leads from the stage to the next one: it fits a rule, and an alignment line fits as
alignment, whatever else it may be.
-/
structure Leads (line : String) (stage next : FunctionStage) : Prop where
  fits : Fits line stage next
  aligned : isAlign line = true → next = stage ∧ stage.label? = none

theorem leads_of_advance (advances : stage.advance number line = .ok (.accept next))
    : Leads line stage next where
  fits := fits_of_advance advances
  aligned := fun aligns => advance_of_isAlign aligns advances

theorem Leads.unaligned (leads : Leads line stage next) (moves : next ≠ stage)
    : isAlign line = false := by
  cases aligns : isAlign line with
  | false => rfl
  | true => exact absurd (leads.aligned aligns).1 moves

/-- A line that leads on is accepted. By cases on its rule: no test before the one for its form
succeeds.
-/
theorem Leads.advance (leads : Leads line stage next) (number : Nat)
    : stage.advance number line = .ok (.accept next) := by
  cases leads.fits with
  | align aligns =>
      obtain ⟨-, early⟩ := leads.aligned aligns
      cases stage with
      | opened | anchored _ | typed _ _ | sized _ _ =>
          simp [FunctionStage.advance, alignedOr, aligns]
      | labelled _ _ | filled _ _ _ => cases early
  | anchor defines =>
      have unaligned := leads.unaligned (by simp)
      simp [FunctionStage.advance, alignedOr, unaligned, defines]
  | typeFirst types =>
      obtain ⟨operands, found⟩ := operandsOf?_of_typeOf? types
      have other : operandsOf? "set" line.toList = none :=
        operandsOf?_of_isDirective (by decide) (isDirective_of_operandsOf? found)
      have absent := anchorDefinition?_of_absent other
      have unaligned := leads.unaligned (by simp)
      simp [FunctionStage.advance, alignedOr, unaligned, absent, expectType, types]
  | type types =>
      have unaligned := leads.unaligned (by simp)
      simp [FunctionStage.advance, alignedOr, unaligned, expectType, types]
  | size sizes =>
      have unaligned := leads.unaligned (by simp)
      simp [FunctionStage.advance, alignedOr, unaligned, sizes]
  | labelFirst labels =>
      have absent : sizeOf? line = none := by
        simp [sizeOf?, symbolThen?, operandsOf?_of_label? labels]
      have unaligned := leads.unaligned (by simp)
      simp [FunctionStage.advance, alignedOr, unaligned, isSizeOf, absent, expectLabel, labels]
  | label labels =>
      have unaligned := leads.unaligned (by simp)
      simp [FunctionStage.advance, alignedOr, unaligned, expectLabel, labels]
  | payload stores decodes =>
      simp [FunctionStage.advance, stores, Scan.payloadBytes, decodes, Except.map]

-----------------------------------------------------------------------------------------
-- Stages and parts of the grammar
-----------------------------------------------------------------------------------------

open ObjectGrammar

/-- The lines from which a stage is reached. -/
inductive Spelled : FunctionStage → List String → Prop
  | opened {lines} (aligns : Alignments lines) : Spelled .opened lines
  | anchored {anchor lines} (opening : Opening (some anchor) lines)
    : Spelled (.anchored anchor) lines
  | typed {anchor symbol before line behind} (opening : Opening anchor before)
    (types : typeOf? line = some (symbol, "object")) (aligns : Alignments behind)
    : Spelled (.typed anchor symbol) (before ++ line :: behind)
  | sized {anchor symbol before line behind size} (part : Spelled (.typed anchor symbol) before)
    (sizes : sizeOf? line = some (symbol, size)) (aligns : Alignments behind)
    : Spelled (.sized anchor symbol) (before ++ line :: behind)
  | labelled {anchor symbol lines} (part : Labelled anchor symbol lines)
    : Spelled (.labelled anchor symbol) lines
  | filled {anchor symbol bytes lines} (part : Object anchor symbol bytes lines)
    : Spelled (.filled anchor symbol bytes) lines

theorem typed_iff {anchor : Option String} {symbol : String} {lines : List String}
    : Typed anchor symbol lines
      ↔ Spelled (.typed anchor symbol) lines ∨ Spelled (.sized anchor symbol) lines := by
  constructor
  · intro given
    obtain ⟨opening, types, sizing⟩ := given
    cases sizing with
    | plain aligns => exact .inl (.typed opening types aligns)
    | sized first sizes later =>
        have spelled := Spelled.sized (.typed opening types first) sizes later
        rw [List.append_assoc, List.cons_append] at spelled
        exact .inr spelled
  · rintro (spelled | spelled)
    · cases spelled with
      | typed opening types aligns => exact ⟨opening, types, .plain aligns⟩
    · cases spelled with
      | sized part sizes later =>
          cases part with
          | typed opening types first =>
              rw [List.append_assoc, List.cons_append]
              exact ⟨opening, types, .sized first sizes later⟩

/-- Lines begin an object exactly if some stage is reached from them. -/
theorem begins_iff {lines : List String}
    : Begins lines ↔ ∃ stage, Spelled stage lines := by
  constructor
  · intro given
    cases given with
    | opening part =>
        cases part with
        | plain aligns => exact ⟨_, .opened aligns⟩
        | anchored first defines later => exact ⟨_, .anchored (.anchored first defines later)⟩
    | typed part =>
        rcases typed_iff.mp part with spelled | spelled
        · exact ⟨_, spelled⟩
        · exact ⟨_, spelled⟩
    | labelled part => exact ⟨_, .labelled part⟩
    | object part => exact ⟨_, .filled part⟩
  · rintro ⟨stage, spelled⟩
    cases spelled with
    | opened aligns => exact .opening (.plain aligns)
    | anchored opening => exact .opening opening
    | typed opening types aligns => exact .typed ⟨opening, types, .plain aligns⟩
    | sized part sizes aligns => exact .typed (typed_iff.mpr (.inr (.sized part sizes aligns)))
    | labelled part => exact .labelled part
    | filled part => exact .object part

/-- Before the label, alignment changes nothing. -/
theorem Spelled.align {lines : List String} (spelled : Spelled stage lines)
    (early : stage.label? = none) (aligns : isAlign line = true)
    : Spelled stage (lines ++ [line]) := by
  cases spelled with
  | opened first => exact .opened (first.snoc aligns)
  | anchored opening =>
      cases opening with
      | anchored first defines later =>
          rw [List.append_assoc, List.cons_append]
          exact .anchored (.anchored first defines (later.snoc aligns))
  | typed opening types later =>
      rw [List.append_assoc, List.cons_append]
      exact .typed opening types (later.snoc aligns)
  | sized part sizes later =>
      rw [List.append_assoc, List.cons_append]
      exact .sized part sizes (later.snoc aligns)
  | labelled _ | filled _ => cases early

/-- A line that leads from one stage to the next also leads on in the grammar. -/
theorem Spelled.snoc {lines : List String} (spelled : Spelled stage lines)
    (leads : Leads line stage next)
    : Spelled next (lines ++ [line]) := by
  have last : Alignments [] := List.forall_mem_nil _
  cases leads.fits with
  | align aligns => exact spelled.align (leads.aligned aligns).2 aligns
  | anchor defines =>
      cases spelled with
      | opened first => exact .anchored (.anchored first defines last)
  | typeFirst types =>
      cases spelled with
      | opened first => exact .typed (.plain first) types last
  | type types =>
      cases spelled with
      | anchored opening => exact .typed opening types last
  | @size anchor symbol sizes =>
      obtain ⟨⟨other, size⟩, known, same⟩ := (Option.any_eq_true _ _).mp sizes
      obtain rfl : other = symbol := by simpa using same
      exact .sized spelled known last
  | labelFirst labels =>
      exact .labelled ⟨typed_iff.mpr (.inl spelled), leads.unaligned (by simp), labels⟩
  | label labels =>
      exact .labelled ⟨typed_iff.mpr (.inr spelled), leads.unaligned (by simp), labels⟩
  | payload stores decodes =>
      cases spelled with
      | labelled part => exact .filled ⟨part, stores, decodes⟩

/-- The last of the lines leads on from a stage that is reached from those before it, by cases on
the part of the grammar in which it stands.
-/
theorem Spelled.exists_leads {lines : List String} (spelled : Spelled next (lines ++ [line]))
    : ∃ stage, Spelled stage lines ∧ Leads line stage next := by
  have aligned {stage : FunctionStage} (early : stage.label? = none)
      (aligns : isAlign line = true)
      : Leads line stage stage :=
    { fits := .align aligns, aligned := fun _ => ⟨rfl, early⟩ }
  have moved {stage : FunctionStage} (fits : Fits line stage next)
      (unaligned : isAlign line = false)
      : Leads line stage next :=
    { fits, aligned := fun aligns => by simp [unaligned] at aligns }
  generalize whole : lines ++ [line] = all at spelled
  cases spelled with
  | opened aligns =>
      obtain ⟨first, aligns⟩ := alignments_snoc (whole ▸ aligns)
      exact ⟨_, .opened first, aligned rfl aligns⟩
  | anchored opening =>
      cases opening with
      | anchored first defines later =>
          rcases snoc_of_alignments later whole.symm
            with ⟨rfl, rfl, rfl⟩ | ⟨others, rfl, rfl, later, aligns⟩
          · obtain ⟨operands, found⟩ := operandsOf?_of_anchorDefinition? defines
            have unaligned := isAlign_of_operandsOf? (by decide) found
            exact ⟨_, .opened first, moved (.anchor defines) unaligned⟩
          · exact ⟨_, .anchored (.anchored first defines later), aligned rfl aligns⟩
  | typed opening types later =>
      rcases snoc_of_alignments later whole.symm
        with ⟨rfl, rfl, rfl⟩ | ⟨others, rfl, rfl, later, aligns⟩
      · obtain ⟨operands, found⟩ := operandsOf?_of_typeOf? types
        have unaligned := isAlign_of_operandsOf? (by decide) found
        cases opening with
        | plain first => exact ⟨_, .opened first, moved (.typeFirst types) unaligned⟩
        | anchored first defines later =>
            exact ⟨_, .anchored (.anchored first defines later), moved (.type types) unaligned⟩
      · exact ⟨_, .typed opening types later, aligned rfl aligns⟩
  | @sized anchor symbol _ _ _ _ part sizes later =>
      rcases snoc_of_alignments later whole.symm
        with ⟨rfl, rfl, rfl⟩ | ⟨others, rfl, rfl, later, aligns⟩
      · obtain ⟨operands, found⟩ := operandsOf?_of_sizeOf? sizes
        have unaligned := isAlign_of_operandsOf? (by decide) found
        exact ⟨_, part, moved (.size (by simp [isSizeOf, sizes])) unaligned⟩
      · exact ⟨_, .sized part sizes later, aligned rfl aligns⟩
  | labelled part =>
      obtain ⟨typed, unaligned, labels⟩ := part
      obtain ⟨rfl, same⟩ := List.append_inj' whole rfl
      cases same
      rcases typed_iff.mp typed with spelled | spelled
      · exact ⟨_, spelled, moved (.labelFirst labels) unaligned⟩
      · exact ⟨_, spelled, moved (.label labels) unaligned⟩
  | filled part =>
      obtain ⟨labelled, stores, decodes⟩ := part
      obtain ⟨rfl, same⟩ := List.append_inj' whole rfl
      cases same
      have unaligned : isAlign line = false :=
        isDirective_of_apart (by decide) (isDirective_of_payload? stores)
      exact ⟨_, .labelled labelled, moved (.payload stores decodes) unaligned⟩

/-- From no lines at all only the first stage is reached. -/
theorem Spelled.of_nil (spelled : Spelled stage []) : stage = .opened := by
  generalize none : ([] : List String) = all at spelled
  cases spelled with
  | opened _ => rfl
  | anchored opening => cases opening with | anchored _ _ _ => simp at none
  | typed _ _ _ | sized _ _ _ => simp at none
  | labelled part => cases part with | mk _ _ _ => simp at none
  | filled part => cases part with | mk _ _ _ => simp at none

/-- One stage is reached from given lines, by induction on them from the last one on. -/
theorem Spelled.unique {lines : List String} {other : FunctionStage}
    (first : Spelled stage lines) (second : Spelled other lines)
    : stage = other := by
  induction lines using List.reverseRecOn generalizing stage other with
  | nil => rw [first.of_nil, second.of_nil]
  | append_singleton lines line ih =>
      obtain ⟨before, spelled, leads⟩ := first.exists_leads
      obtain ⟨earlier, spelled', leads'⟩ := second.exists_leads
      obtain rfl := ih spelled spelled'
      have advances := leads.advance 0
      rw [leads'.advance 0] at advances
      cases advances
      rfl

/-- Lines begin an object to their end or up to some line that does not go on with it. By induction
on them from the last one on.
-/
theorem spelled_or_stops (lines : List String)
    : (∃ stage, Spelled stage lines)
      ∨ ∃ before line behind stage,
          lines = before ++ line :: behind
          ∧ Spelled stage before
          ∧ ¬∃ next, Spelled next (before ++ [line]) := by
  induction lines using List.reverseRecOn with
  | nil => exact .inl ⟨_, .opened (List.forall_mem_nil _)⟩
  | append_singleton lines line ih =>
      rcases ih with ⟨stage, spelled⟩ | ⟨before, stop, behind, stage, rfl, spelled, ends⟩
      · by_cases goesOn : ∃ next, Spelled next (lines ++ [line])
        · exact .inl goesOn
        · exact .inr ⟨lines, line, [], stage, rfl, spelled, goesOn⟩
      · exact .inr ⟨before, stop, behind ++ [line], stage, by simp, spelled, ends⟩

end FunctionStage

-----------------------------------------------------------------------------------------
-- Where the lines stop
-----------------------------------------------------------------------------------------

namespace ObjectGrammar

/-- The lines begin an object and the next line does not go on with it: it is neither a form that
the grammar has there, nor what stands behind a whole object, nor a payload at fault.
-/
structure LeavesAt (lines : List String) (next : String) : Prop where
  begins : Begins lines
  ends : ¬Begins (lines ++ [next])
  second
    : ∀ {anchor symbol bytes}, Object anchor symbol bytes lines → (payload? next).isSome = true
  missing : ∀ {anchor symbol}, Labelled anchor symbol lines → payload? next = none

variable {stage : FunctionStage} {lines : List String} {next : String}

/-- The grammar is left exactly at a line that does not fit the stage, by cases on what the line
means to the stage.
-/
theorem leavesAt_iff (spelled : stage.Spelled lines) (number : Nat)
    : LeavesAt lines next ↔ ∃ reason, stage.advance number next = .ok (.misfit reason) := by
  constructor
  · intro leaves
    cases means : stage.advance number next with
    | error fault =>
        obtain ⟨decodes, payload, stores, -⟩ := Scan.advance_eq_error_iff.mp means
        cases spelled with
        | labelled part => simp [leaves.missing part] at stores
        | opened _ | anchored _ | typed _ _ _ | sized _ _ _ | filled _ => cases decodes
    | ok advance =>
        cases advance with
        | accept other =>
            have later := spelled.snoc (FunctionStage.leads_of_advance means)
            exact absurd (FunctionStage.begins_iff.mpr ⟨other, later⟩) leaves.ends
        | complete anchor symbol bytes =>
            obtain ⟨rfl, plain⟩ := FunctionStage.eq_filled_of_complete means
            cases spelled with
            | filled part => simpa [plain] using leaves.second part
        | misfit reason => exact ⟨reason, rfl⟩
  · rintro ⟨reason, means⟩
    refine {
      begins := FunctionStage.begins_iff.mpr ⟨stage, spelled⟩
      ends := ?_
      second := ?_
      missing := ?_
    }
    · rw [FunctionStage.begins_iff]
      rintro ⟨other, later⟩
      obtain ⟨before, earlier, leads⟩ := later.exists_leads
      obtain rfl := spelled.unique earlier
      rw [leads.advance number] at means
      cases means
    · intro anchor symbol bytes part
      obtain rfl := spelled.unique (.filled part)
      cases stores : payload? next with
      | some payload => rfl
      | none => simp [FunctionStage.advance, stores] at means
    · intro anchor symbol part
      obtain rfl := spelled.unique (.labelled part)
      cases stores : payload? next with
      | none => rfl
      | some payload =>
          simp only [FunctionStage.advance, stores] at means
          cases decodes : Scan.payloadBytes number next payload <;>
            simp [decodes, Except.map] at means

end ObjectGrammar

end RomStrings
