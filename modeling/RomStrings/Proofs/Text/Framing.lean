import RomStrings.Text.Lines

/-!
Lines survive being put together and taken apart again, if none of them holds a line break and an
empty line does not come last without a break behind it.
-/

namespace RomStrings.Text

-----------------------------------------------------------------------------------------
-- Splitting
-----------------------------------------------------------------------------------------

/-- A text is split behind its first part and the separator, by induction on that part. -/
theorem split_append {separator : Char} {part : List Char} (plain : separator ∉ part)
    (rest : List Char)
    : split separator (part ++ separator :: rest) = part :: split separator rest := by
  induction part with
  | nil =>
      rw [List.nil_append, split_cons]
      cases parts : split separator rest with
      | nil => exact absurd parts (split_ne_nil separator rest)
      | cons first others => simp [splitStep]
  | cons c part ih =>
      have different : c ≠ separator := fun same => plain (by simp [same])
      have later : separator ∉ part := fun member => plain (List.mem_cons_of_mem c member)
      rw [List.cons_append, split_cons, ih later]
      simp [splitStep, different]

theorem join_cons_cons (separator : Char) (part next : List Char) (others : List (List Char))
    : join separator (part :: next :: others)
      = part ++ separator :: join separator (next :: others) := by
  simp [join, List.intersperse]

/-- Parts that are joined are split again, by induction on them. -/
theorem split_join {separator : Char} {parts : List (List Char)} (nonempty : parts ≠ [])
    (plain : ∀ part ∈ parts, separator ∉ part)
    : split separator (join separator parts) = parts := by
  induction parts with
  | nil => contradiction
  | cons part rest ih =>
      have head := plain part (by simp)
      cases rest with
      | nil => simpa [join] using split_eq_singleton head
      | cons next others =>
          have later := ih (by simp) fun own member => plain own (List.mem_cons_of_mem _ member)
          rw [join_cons_cons, split_append head, later]

/-- A separator at the end makes an empty last part, by induction on the parts. -/
theorem join_snoc {separator : Char} {parts : List (List Char)} (nonempty : parts ≠ [])
    : join separator (parts ++ [[]]) = join separator parts ++ [separator] := by
  induction parts with
  | nil => contradiction
  | cons part rest ih =>
      cases rest with
      | nil => simp [join, List.intersperse]
      | cons next others =>
          have later := ih (by simp)
          rw [List.cons_append] at later
          rw [List.cons_append, List.cons_append, join_cons_cons, join_cons_cons, later]
          simp

/-- A part of a split text holds no separator, and no character that the text does not hold, by
induction on the text.
-/
theorem mem_split {separator : Char} {text part : List Char}
    (member : part ∈ split separator text)
    : separator ∉ part ∧ ∀ c ∈ part, c ∈ text := by
  induction text generalizing part with
  | nil =>
      rw [List.mem_singleton.mp member]
      exact ⟨by simp, by simp⟩
  | cons c rest ih =>
      rw [split_cons] at member
      cases parts : split separator rest with
      | nil => exact absurd parts (split_ne_nil separator rest)
      | cons first others =>
          rw [parts] at ih member
          simp only [splitStep] at member
          split at member
          next =>
            rcases List.mem_cons.mp member with rfl | member
            · exact ⟨by simp, by simp⟩
            · obtain ⟨plain, inside⟩ := ih member
              exact ⟨plain, fun d known => List.mem_cons_of_mem _ (inside d known)⟩
          next different =>
            rcases List.mem_cons.mp member with rfl | member
            · obtain ⟨plain, inside⟩ := ih (List.mem_cons_self)
              refine ⟨?_, ?_⟩
              · intro known
                rcases List.mem_cons.mp known with same | known
                · exact different same.symm
                · exact plain known
              · intro d known
                rcases List.mem_cons.mp known with rfl | known
                · simp
                · exact List.mem_cons_of_mem _ (inside d known)
            · obtain ⟨plain, inside⟩ := ih (List.mem_cons_of_mem _ member)
              exact ⟨plain, fun d known => List.mem_cons_of_mem _ (inside d known)⟩

/-- A separator at the end makes an empty last part, whatever is before it. -/
theorem split_concat (separator : Char) (text : List Char)
    : split separator (text ++ [separator]) = split separator text ++ [[]] := by
  have plain : ∀ part ∈ split separator text ++ [[]], separator ∉ part :=
    List.forall_mem_append.mpr ⟨fun part member => (mem_split member).1, by simp⟩
  have parts := split_join (by simp) plain
  rwa [join_snoc (split_ne_nil separator text), join_split] at parts

-----------------------------------------------------------------------------------------
-- Line breaks
-----------------------------------------------------------------------------------------

/-- No carriage return is left when line breaks are unified, by induction on the text. -/
theorem return_not_mem_unifyBreaks (text : List Char) : '\r' ∉ unifyBreaks text := by
  have kept (breaks : Breaks) (plain : '\r' ∉ breaks.reversed)
      : '\r' ∉ (text.foldl Breaks.read breaks).reversed := by
    induction text generalizing breaks with
    | nil => exact plain
    | cons c rest ih =>
        refine ih (breaks.read c) ?_
        simp only [Breaks.read]
        split
        next => simpa using plain
        next notReturn =>
          split
          next => exact plain
          next => simp [plain, Ne.symm notReturn]
  simpa [unifyBreaks] using kept _ (by simp)

/-- A text without carriage returns keeps its line breaks, by induction on it. -/
theorem unifyBreaks_of_not_mem {text : List Char} (plain : '\r' ∉ text)
    : unifyBreaks text = text := by
  induction text with
  | nil => rfl
  | cons c rest ih =>
      have different : c ≠ '\r' := fun same => plain (by simp [same])
      rw [unifyBreaks_cons different, ih fun member => plain (List.mem_cons_of_mem _ member)]

/-- The text is a line, with no break in it. -/
structure Unbroken (text : List Char) : Prop where
  feed : '\n' ∉ text
  carriage : '\r' ∉ text

/-- A framed text that is read from some text: its lines are unbroken, and it does not end in an
empty line without a break.
-/
structure Framed.Proper (framed : Framed) : Prop where
  unbroken : ∀ line ∈ framed.lines, Unbroken line
  last : framed.ended = false → framed.lines ≠ [] ∧ framed.lines.getLast? ≠ some []

theorem proper_frame (text : List Char) : (frame text).Proper := by
  have parts : ∀ line ∈ split '\n' (unifyBreaks text), Unbroken line := by
    intro line member
    obtain ⟨plain, inside⟩ := mem_split member
    exact ⟨plain, fun known => return_not_mem_unifyBreaks text (inside '\r' known)⟩
  simp only [frame]
  split
  next =>
    refine { unbroken := ?_, last := nofun }
    exact fun line member => parts line (List.dropLast_subset _ member)
  next last => exact { unbroken := parts, last := fun _ => ⟨split_ne_nil _ _, last⟩ }

/-- A character between joined parts is the separator, by induction on the parts. -/
theorem mem_join {separator c : Char} {parts : List (List Char)}
    (member : c ∈ join separator parts)
    : c = separator ∨ ∃ part ∈ parts, c ∈ part := by
  induction parts with
  | nil => cases member
  | cons part rest ih =>
      cases rest with
      | nil => exact .inr ⟨part, by simp, by simpa [join] using member⟩
      | cons next others =>
          rw [join_cons_cons] at member
          rcases List.mem_append.mp member with member | member
          · exact .inr ⟨part, by simp, member⟩
          · rcases List.mem_cons.mp member with same | member
            · exact .inl same
            · rcases ih member with same | ⟨own, known, inside⟩
              · exact .inl same
              · exact .inr ⟨own, List.mem_cons_of_mem _ known, inside⟩

theorem return_not_mem_text {framed : Framed} (unbroken : ∀ line ∈ framed.lines, Unbroken line)
    : '\r' ∉ framed.text := by
  intro member
  simp only [Framed.text] at member
  split at member
  next => cases member
  next =>
    rcases List.mem_append.mp member with member | member
    · rcases mem_join member with same | ⟨line, known, inside⟩
      · cases same
      · exact (unbroken line known).carriage inside
    · split at member
      next => simp at member
      next => cases member

/-- A text put together from proper lines is taken apart into them. -/
theorem frame_text {framed : Framed} (proper : framed.Proper) : frame framed.text = framed := by
  have unified := unifyBreaks_of_not_mem (return_not_mem_text proper.unbroken)
  obtain ⟨lines, ended⟩ := framed
  have plain : ∀ line ∈ lines, '\n' ∉ line := fun line member =>
    (proper.unbroken line member).feed
  by_cases none : lines = []
  · subst none
    cases ended with
    | true => rfl
    | false => exact absurd rfl (proper.last rfl).1
  · have nonempty : lines.isEmpty = false := by simpa using none
    cases ended with
    | true =>
        have whole : ({ lines, ended := true } : Framed).text = join '\n' lines ++ ['\n'] := by
          simp [Framed.text, nonempty]
        rw [frame, unified, whole, split_concat, split_join none plain]
        simp
    | false =>
        have whole : ({ lines, ended := false } : Framed).text = join '\n' lines := by
          simp [Framed.text, nonempty]
        rw [frame, unified, whole, split_join none plain]
        simp only [if_neg (proper.last rfl).2]

/-- A text that is taken apart is put together with its line breaks unified, by cases on whether it
ends in one.
-/
theorem text_frame (text : List Char) : (frame text).text = unifyBreaks text := by
  have parts := join_split '\n' (unifyBreaks text)
  have nonempty := split_ne_nil '\n' (unifyBreaks text)
  simp only [frame]
  split
  next last =>
    obtain ⟨front, whole⟩ := List.getLast?_eq_some_iff.mp last
    rw [whole] at parts ⊢
    rw [List.dropLast_concat]
    cases front with
    | nil => exact parts
    | cons line rest =>
        rw [join_snoc (List.cons_ne_nil line rest)] at parts
        exact parts
  next =>
    have some : (split '\n' (unifyBreaks text)).isEmpty = false := by simpa using nonempty
    rw [Framed.text, some]
    simpa using parts

/-- Line breaks are unified once and for all. -/
theorem frame_unifyBreaks (text : List Char) : frame (unifyBreaks text) = frame text := by
  rw [frame, unifyBreaks_of_not_mem (return_not_mem_unifyBreaks text)]
  rfl

end RomStrings.Text
