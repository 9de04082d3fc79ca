import RomStrings.Proofs.Rom.Image
import RomStrings.Proofs.Rom.Keys

/-!
What an image holds is found in its table. The image is never searched, only its strings and their
tails are; but every occurrence of a string in an image ends one of the strings of the image, so
none is missed.
-/

namespace RomStrings.Rom

variable {image data : Bytes} {base : Nat}

-----------------------------------------------------------------------------------------
-- Strings in front
-----------------------------------------------------------------------------------------

/-- A string in front of an image is the first of its strings, by induction on the text of it. -/
theorem splitImage_string {string : Bytes} (isString : IsString string) (rest : Bytes)
    : splitImage (string ++ rest)
      = (string :: (splitImage rest).1, (splitImage rest).2) := by
  obtain ⟨text, rfl, plain⟩ := isString
  induction text with
  | nil => rfl
  | cons b text ih =>
      rw [List.mem_cons, not_or] at plain
      obtain ⟨nonzero, plain⟩ := plain
      rw [List.cons_append, List.cons_append, splitImage_cons, ih plain]
      simp [splitStep, Ne.symm nonzero]

/-- So are strings in front, by induction on them. -/
theorem splitImage_strings {strings : List Bytes}
    (areStrings : ∀ string ∈ strings, IsString string) (rest : Bytes)
    : splitImage (strings.flatten ++ rest)
      = (strings ++ (splitImage rest).1, (splitImage rest).2) := by
  induction strings with
  | nil => rfl
  | cons string others ih =>
      obtain ⟨isString, areStrings⟩ := List.forall_mem_cons.mp areStrings
      rw [List.flatten_cons, List.append_assoc, splitImage_string isString, ih areStrings]
      rfl

/-- Behind the last string no zero byte is left, by induction on the image. -/
theorem zero_not_mem_trailing (image : Bytes) : 0 ∉ trailing image := by
  induction image with
  | nil => simp [trailing, splitImage]
  | cons b rest ih =>
      rw [trailing] at ih
      rw [trailing, splitImage_cons]
      generalize splitImage rest = parts at ih
      obtain ⟨strings, tail⟩ := parts
      simp only [splitStep]
      split
      next => exact ih
      next nonzero =>
        cases strings with
        | nil => simpa [Ne.symm nonzero] using ih
        | cons first others => exact ih

/-- Where a string may start, all that comes before is made of strings. -/
theorem trailing_of_startsString {before after : Bytes}
    (starts : StartsString (before ++ after) before.length)
    : trailing before = [] := by
  rcases List.eq_nil_or_concat before with rfl | ⟨front, last, rfl⟩
  · rfl
  · have zero : last = 0 := by
      rcases starts with empty | zero
      · simp at empty
      · simpa [List.concat_eq_append] using zero
    rcases List.eq_nil_or_concat (trailing (front.concat last)) with none | ⟨own, final, rest⟩
    · exact none
    · have whole := flatten_splitImage (front.concat last)
      rw [← trailing, rest, List.concat_eq_append, List.concat_eq_append, ← List.append_assoc]
        at whole
      have same : final = last := by simpa using (List.append_inj' whole rfl).2
      have absent := zero_not_mem_trailing (front.concat last)
      rw [rest] at absent
      simp [same, zero] at absent

-----------------------------------------------------------------------------------------
-- Occurrences
-----------------------------------------------------------------------------------------

/-- Every occurrence of a string ends one of the strings of the image: the one that starts behind
the last zero byte before the occurrence.
-/
theorem mem_splitImage_of_occurs (isString : IsString data) (before after : Bytes)
    : trailing before ++ data ∈ (splitImage (before ++ data ++ after)).1 := by
  have longer : IsString (trailing before ++ data) := by
    obtain ⟨text, rfl, plain⟩ := isString
    refine ⟨trailing before ++ text, by simp, fun zero => ?_⟩
    rcases List.mem_append.mp zero with zero | zero
    · exact zero_not_mem_trailing before zero
    · exact plain zero
  have whole : before ++ data ++ after
      = (splitImage before).1.flatten ++ (trailing before ++ data ++ after) := by
    have own : (splitImage before).1.flatten ++ trailing before = before :=
      flatten_splitImage before
    rw [← List.append_assoc, ← List.append_assoc, own]
  rw [whole, splitImage_strings (isString_splitImage before), splitImage_string longer]
  simp

theorem mem_strings_ofImage (base : Nat)
    : data ∈ (Table.ofImage image base).strings ↔ data ∈ (splitImage image).1 := by
  rw [Table.mem_strings, ← map_bytes_chunks, List.mem_map]
  rfl

/-- The strings of a table are those that occur in the image where a string may start. -/
theorem mem_strings_iff_occurs
    : data ∈ (Table.ofImage image base).strings
      ↔ IsString data ∧ ∃ offset, Occurs image offset data ∧ StartsString image offset := by
  constructor
  · intro listed
    obtain ⟨chunk, member, rfl⟩ := Table.mem_strings.mp listed
    obtain ⟨occurs, isString, starts⟩ := chunk_occurs member
    exact ⟨isString, chunk.offset, occurs, starts⟩
  · intro given
    obtain ⟨isString, offset, ⟨before, after, rfl, rfl⟩, starts⟩ := given
    have found := mem_splitImage_of_occurs isString before after
    rw [List.append_assoc] at starts
    rw [trailing_of_startsString starts] at found
    exact (mem_strings_ofImage base).mpr found

/-- What occurs anywhere in the image as a string is one of its strings, or the tail of one. -/
theorem mem_strings_or_isTail_iff_occurs
    : data ∈ (Table.ofImage image base).strings ∨ (Table.ofImage image base).IsTail data
      ↔ IsString data ∧ ∃ offset, Occurs image offset data := by
  constructor
  · rintro (listed | ⟨remains, string, listed, -, front, rfl⟩)
    · obtain ⟨isString, offset, occurs, -⟩ := mem_strings_iff_occurs.mp listed
      exact ⟨isString, offset, occurs⟩
    · obtain ⟨isString, offset, occurs, -⟩ := mem_strings_iff_occurs.mp listed
      exact ⟨isString_of_append isString remains, _, occurs.tail⟩
  · intro given
    obtain ⟨isString, offset, before, after, rfl, rfl⟩ := given
    have found := mem_splitImage_of_occurs isString before after
    rw [← mem_strings_ofImage base] at found
    obtain ⟨text, rfl, -⟩ := isString
    cases front : trailing before with
    | nil => exact .inl (by simpa [front] using found)
    | cons byte rest =>
        refine .inr ⟨by simp, _, found, ?_, List.suffix_append _ _⟩
        simp only [front, List.length_append, List.length_cons]
        omega

/-- Bytes that are held at an address occur in the image, as far from its start as the address is
from the base.
-/
theorem HeldAt.occurs {address : Int} (held : HeldAt image base address data)
    : ∃ offset, address = ((base + offset : Nat) : Int) ∧ Occurs image offset data := by
  obtain ⟨above, bound, bytes⟩ := held
  refine ⟨(address - base).toNat, by omega, ?_⟩
  generalize (address - base).toNat = offset at bound bytes
  refine ⟨image.take offset, image.drop (offset + data.length), ?_, by simp; omega⟩
  calc image
      = image.take offset ++ image.drop offset := (List.take_append_drop _ _).symm
    _ = image.take offset ++ ((image.drop offset).take data.length
          ++ (image.drop offset).drop data.length) :=
        congrArg _ (List.take_append_drop _ _).symm
    _ = image.take offset ++ data ++ image.drop (offset + data.length) := by
        rw [bytes, List.drop_drop, List.append_assoc]

-----------------------------------------------------------------------------------------
-- Matches
-----------------------------------------------------------------------------------------

/-- Bytes are found in the table of an image exactly if the image holds them. -/
structure FindsOccurrences (image : Bytes) (base : Nat) (data : Bytes) : Prop where
  /-- A literal is found exactly if it is a string that occurs anywhere in the image. -/
  literal
    : (∃ found, (Table.ofImage image base).matchLiteral data = some found)
      ↔ IsString data ∧ ∃ offset, Occurs image offset data
  /-- A function's name is found exactly if it also occurs where a string may start. -/
  function
    : (∃ found, (Table.ofImage image base).matchFunction data = some found)
      ↔ IsString data ∧ ∃ offset, Occurs image offset data ∧ StartsString image offset
  /-- A literal is found as a whole string exactly if it occurs where a string may start. -/
  kind
    : ∀ found,
        (Table.ofImage image base).matchLiteral data = some found
        → (found.kind = .exact
          ↔ ∃ offset, Occurs image offset data ∧ StartsString image offset)
  /-- A literal is found where it occurs. -/
  address
    : ∀ found,
        (Table.ofImage image base).matchLiteral data = some found
        → ∃ offset,
            found.address = ((base + offset : Nat) : Int) ∧ Occurs image offset data

/-- Matching finds what the image holds and nothing else. What is found is a string of the table or
the tail of one, and these are the strings that occur where a string may start, or anywhere.
-/
theorem finds_occurrences (image : Bytes) (base : Nat) (data : Bytes)
    : FindsOccurrences image base data where
  literal := by
    rw [← Option.isSome_iff_exists, Table.isSome_matchLiteral, mem_strings_or_isTail_iff_occurs]
  function := by
    rw [← Option.isSome_iff_exists, Table.matchFunction, Table.isSome_matchExact,
      mem_strings_iff_occurs]
  kind := by
    intro found matched
    obtain ⟨-, isString⟩ := matchLiteral_sound matched
    rw [Table.kind_of_matchLiteral matched, mem_strings_iff_occurs]
    exact and_iff_right isString
  address := by
    intro found matched
    obtain ⟨held, -⟩ := matchLiteral_sound matched
    exact held.occurs

/-- The end of the only string of an image is found within it, as it stands nowhere by itself: behind
the string the image breaks off.
-/
theorem finds_occurrences_within_string
    : let image : Bytes := [104, 105, 0, 105]
      let found : Match := { address := 4097, kind := .suffix, romString := [104, 105, 0] }
      (Table.ofImage image 4096).matchLiteral [105, 0] = some found
      ∧ FindsOccurrences image 4096 [105, 0]
      ∧ ¬∃ offset, Occurs image offset [105, 0] ∧ StartsString image offset := by
  intro image found
  have matched : (Table.ofImage image 4096).matchLiteral [105, 0] = some found := by decide +kernel
  have finds := finds_occurrences image 4096 [105, 0]
  refine ⟨matched, finds, fun starts => ?_⟩
  have exact : found.kind = .exact := (finds.kind found matched).mpr starts
  contradiction

end RomStrings.Rom
