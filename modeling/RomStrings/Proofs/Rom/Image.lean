import RomStrings.Rom.Match

/-!
What is found in a ROM image is there. The strings of an image lie at their offsets, and an exact
match or a tail of a longer string has the address at which the image holds its bytes.
-/

namespace RomStrings.Rom

-----------------------------------------------------------------------------------------
-- Strings of an image
-----------------------------------------------------------------------------------------

/-- The bytes end with a zero byte and hold no other. -/
def IsString (data : Bytes) : Prop :=
  ∃ text, data = text ++ [0] ∧ 0 ∉ text

/-- The image holds the bytes from the offset on. -/
def Occurs (image : Bytes) (offset : Nat) (data : Bytes) : Prop :=
  ∃ before after, image = before ++ data ++ after ∧ before.length = offset

/-- A string may start at the offset: at the start of the image, or behind a zero byte. -/
def StartsString (image : Bytes) (offset : Nat) : Prop :=
  offset = 0 ∨ image[offset - 1]? = some 0

/-- An image is split into strings, by induction on it. -/
theorem isString_splitImage (image : Bytes)
    : ∀ string ∈ (splitImage image).1, IsString string := by
  induction image with
  | nil => intro string member; cases member
  | cons b rest ih =>
      intro string member
      rw [splitImage_cons] at member
      generalize splitImage rest = parts at ih member
      obtain ⟨strings, tail⟩ := parts
      simp only [splitStep] at member
      split at member
      next =>
        rcases List.mem_cons.mp member with rfl | member
        · exact ⟨[], rfl, by simp⟩
        · exact ih string member
      next nonzero =>
        cases strings with
        | nil => cases member
        | cons first others =>
            rcases List.mem_cons.mp member with rfl | member
            · obtain ⟨text, rfl, plain⟩ := ih first (by simp)
              refine ⟨b :: text, rfl, ?_⟩
              intro zero
              rcases List.mem_cons.mp zero with zero | zero
              · exact nonzero zero.symm
              · exact plain zero
            · exact ih string (List.mem_cons_of_mem _ member)

/-- A string is placed behind those before it, by induction on the strings. -/
theorem mem_placed {strings : List Bytes} {offset : Nat} {chunk : Chunk}
    (member : chunk ∈ (strings.foldl placeStep (offset, [])).2)
    : ∃ before after,
        strings = before ++ chunk.bytes :: after
        ∧ chunk.offset = offset + before.flatten.length := by
  induction strings generalizing offset with
  | nil => cases member
  | cons string rest ih =>
      rw [List.foldl_cons, placeStep, foldl_placeStep] at member
      rcases List.mem_append.mp member with member | member
      · obtain ⟨before, after, rfl, place⟩ := ih member
        refine ⟨string :: before, after, rfl, ?_⟩
        rw [place, List.flatten_cons, List.length_append]
        omega
      · obtain rfl := List.mem_singleton.mp member
        exact ⟨[], rest, rfl, rfl⟩

/-- Behind strings a string may start. -/
theorem startsString_flatten {before : List Bytes} (strings : ∀ string ∈ before, IsString string)
    (after : Bytes)
    : StartsString (before.flatten ++ after) before.flatten.length := by
  rcases List.eq_nil_or_concat before with rfl | ⟨front, last, rfl⟩
  · exact Or.inl rfl
  · obtain ⟨text, rfl, -⟩ := strings last (by simp)
    right
    simp [List.concat_eq_append]

/-- The image holds each of its strings at its offset, and the string starts there. -/
theorem chunk_occurs {image : Bytes} {chunk : Chunk} (member : chunk ∈ chunks image)
    : Occurs image chunk.offset chunk.bytes
      ∧ IsString chunk.bytes
      ∧ StartsString image chunk.offset := by
  obtain ⟨before, after, strings, place⟩ := mem_placed (List.mem_reverse.mp member)
  have whole := flatten_splitImage image
  have isString := isString_splitImage image
  rw [strings] at whole isString
  rw [Nat.zero_add] at place
  have shape : image
      = before.flatten ++ (chunk.bytes ++ (after.flatten ++ (splitImage image).2)) := by
    simpa using whole.symm
  refine ⟨⟨before.flatten, after.flatten ++ (splitImage image).2, ?_, place.symm⟩, ?_, ?_⟩
  · simpa using shape
  · exact isString chunk.bytes (by simp)
  · rw [place, shape]
    exact startsString_flatten (fun string known => isString string (by simp [known])) _

-----------------------------------------------------------------------------------------
-- Addresses of an image
-----------------------------------------------------------------------------------------

/-- The image, mapped at the base, holds the bytes at the address. -/
structure HeldAt (image : Bytes) (base : Nat) (address : Address) (data : Bytes) : Prop where
  above : (base : Int) ≤ address
  bound : (address - base).toNat + data.length ≤ image.length
  bytes : (image.drop (address - base).toNat).take data.length = data

/-- A string may start at the address. -/
def StringAt (image : Bytes) (base : Nat) (address : Address) : Prop :=
  address = base ∨ image[(address - base).toNat - 1]? = some 0

variable {image : Bytes} {base : Nat} {data : Bytes}

theorem Occurs.heldAt {offset : Nat} (occurs : Occurs image offset data)
    : HeldAt image base ((base + offset : Nat) : Int) data := by
  obtain ⟨before, after, rfl, rfl⟩ := occurs
  have place : (((base + before.length : Nat) : Int) - base).toNat = before.length := by omega
  exact {
    above := by omega
    bound := by
      rw [place]
      simp
    bytes := by
      rw [place]
      simp
  }

theorem StartsString.stringAt {offset : Nat} (starts : StartsString image offset)
    : StringAt image base ((base + offset : Nat) : Int) := by
  have place : (((base + offset : Nat) : Int) - base).toNat = offset := by omega
  rcases starts with rfl | zero
  · exact Or.inl (by simp)
  · exact Or.inr (by rwa [place])

theorem Occurs.tail {offset : Nat} {front : Bytes} (occurs : Occurs image offset (front ++ data))
    : Occurs image (offset + front.length) data := by
  obtain ⟨before, after, rfl, rfl⟩ := occurs
  exact ⟨before ++ front, after, by simp, by simp⟩

/-- A tail of a string is one itself, if any of it is left. -/
theorem isString_of_append {front : Bytes} (isString : IsString (front ++ data))
    (remains : data ≠ [])
    : IsString data := by
  obtain ⟨text, split, plain⟩ := isString
  obtain ⟨own, last, rfl⟩ := (List.eq_nil_or_concat data).resolve_left remains
  rw [List.concat_eq_append, ← List.append_assoc] at split
  obtain ⟨rfl, zero⟩ := List.append_inj' split rfl
  rw [List.concat_eq_append, zero]
  exact ⟨own, rfl, fun member => plain (List.mem_append_right _ member)⟩

-----------------------------------------------------------------------------------------
-- Matches
-----------------------------------------------------------------------------------------

/-- A whole string is held at the address at which it is looked up. -/
theorem lookup_sound {address : Address}
    (found : (Table.ofImage image base).lookup data = some address)
    : ∃ offset,
        address = ((base + offset : Nat) : Int)
        ∧ Occurs image offset data
        ∧ IsString data
        ∧ StartsString image offset := by
  obtain ⟨chunk, last, rfl⟩ := Option.map_eq_some_iff.mp found
  have same : chunk.bytes = data := by simpa using List.find?_some last
  have member : chunk ∈ chunks image := List.mem_reverse.mp (List.mem_of_find?_eq_some last)
  obtain ⟨occurs, isString, starts⟩ := chunk_occurs member
  rw [same] at occurs isString
  exact ⟨chunk.offset, rfl, occurs, isString, starts⟩

/-- An exact match is held at its address, and a string starts there. -/
theorem matchExact_sound {found : Match}
    (matched : (Table.ofImage image base).matchExact data = some found)
    : HeldAt image base found.address data
      ∧ IsString data
      ∧ StringAt image base found.address := by
  obtain ⟨address, known, rfl⟩ := Option.map_eq_some_iff.mp matched
  obtain ⟨offset, rfl, occurs, isString, starts⟩ := lookup_sound known
  exact ⟨occurs.heldAt, isString, starts.stringAt⟩

/-- A tail of a longer string is held at its address, behind the bytes of that string that are
skipped.
-/
theorem matchSuffix_sound {found : Match}
    (matched : (Table.ofImage image base).matchSuffix data = some found)
    : HeldAt image base found.address data ∧ IsString data := by
  obtain ⟨suffix, known, rfl⟩ := Option.map_eq_some_iff.mp matched
  simp only [Table.findSuffix] at known
  split at known
  next => cases known
  next nonempty =>
    have remains : data ≠ [] := by simpa using nonempty
    simp only [Option.bind_eq_bind, Option.bind_eq_some_iff] at known
    obtain ⟨chunk, first, address, looked, same⟩ := known
    cases same
    have ends := List.find?_some first
    simp only [Table.endsWith, Bool.and_eq_true, decide_eq_true_eq] at ends
    obtain ⟨front, split⟩ := List.isSuffixOf_iff_suffix.mp ends.2
    obtain ⟨offset, rfl, occurs, isString, -⟩ := lookup_sound looked
    have skipped : chunk.bytes.length - data.length = front.length := by
      rw [← split, List.length_append]
      omega
    rw [← split] at occurs isString
    refine ⟨?_, isString_of_append isString remains⟩
    have held : HeldAt image base _ data := occurs.tail.heldAt
    simpa [SuffixMatch.address, skipped, Int.add_assoc] using held

theorem matchLiteral_sound {found : Match}
    (matched : (Table.ofImage image base).matchLiteral data = some found)
    : HeldAt image base found.address data ∧ IsString data := by
  cases whole : (Table.ofImage image base).matchExact data with
  | some exact =>
      simp only [Table.matchLiteral, whole] at matched
      cases matched
      obtain ⟨held, isString, -⟩ := matchExact_sound whole
      exact ⟨held, isString⟩
  | none =>
      simp only [Table.matchLiteral, whole] at matched
      exact matchSuffix_sound matched

end RomStrings.Rom
