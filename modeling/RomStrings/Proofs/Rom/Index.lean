import Mathlib.Order.Bounds.Basic
import RomStrings.Proofs.Rom.Occurrences

/-!
The table of an image, said of the image alone. Its strings are those that stand where a string may
start, in the order in which each stands there first, and each has the address at which it stands
there last. So a tail is found in the first longer string in image order, but at the last place of
that string.
-/

namespace RomStrings.Rom

variable {image data : Bytes} {base : Nat}

/-- Where the image holds the data as a string of its own. -/
def placesOf (image data : Bytes) : Set Nat :=
  {offset | Occurs image offset data ∧ StartsString image offset}

/-- The string is longer than the data and ends with it. -/
def EndsWith (data string : Bytes) : Prop :=
  data.length < string.length ∧ data <:+ string

instance (data string : Bytes) : Decidable (EndsWith data string) :=
  inferInstanceAs (Decidable (_ ∧ _))

/-- The one string stands in the image before the other one does. -/
def StandsBefore (image string other : Bytes) : Prop :=
  ∃ first next,
    IsLeast (placesOf image string) first ∧ IsLeast (placesOf image other) next ∧ first < next

/-- The string that is found for a tail: the first of those that are longer and end with it, with
the address of that string.
-/
structure FirstTail (table : Table) (data : Bytes) (found : SuffixMatch) : Prop where
  first : ∃ before after,
    table.strings = before ++ found.romString :: after
    ∧ EndsWith data found.romString
    ∧ ∀ string ∈ before, ¬EndsWith data string
  located : table.lookup found.romString = some found.romAddress
  skip : found.skip = found.romString.length - data.length

theorem StandsBefore.irrefl : ¬StandsBefore image data data := by
  rintro ⟨first, next, least, other, before⟩
  exact Nat.ne_of_lt before (least.unique other)

/-- What a table has to do with the image that it was read from. -/
structure Indexes (image : Bytes) (base : Nat) (table : Table) : Prop where
  /-- A string is looked up at the last place where the image holds it. -/
  last
    : ∀ data offset,
        table.lookup data = some ((base + offset : Nat) : Int)
          ↔ IsString data ∧ IsGreatest (placesOf image data) offset
  /-- Nothing is looked up below the base. -/
  inside
    : ∀ data address,
        table.lookup data = some address → ∃ offset : Nat, address = ((base + offset : Nat) : Int)
  /-- The strings listed are those that the image holds, each listed once. -/
  listed : ∀ data, data ∈ table.strings ↔ IsString data ∧ (placesOf image data).Nonempty
  once : table.strings.Nodup
  /-- They are listed in the order of the first places where the image holds them. -/
  order : table.strings.Pairwise (StandsBefore image)
  /-- The first longer string that ends with the data is found, if there is one. -/
  tail
    : ∀ data found,
        data ≠ [] → (table.findSuffix data = some found ↔ FirstTail table data found)
  noTail
    : ∀ data,
        data ≠ []
        → (table.findSuffix data = none ↔ ∀ string ∈ table.strings, ¬EndsWith data string)
  /-- No string is found to end with nothing. -/
  nothing : table.findSuffix [] = none
  /-- The image holds the data where the string that is found ends. -/
  held
    : ∀ data found,
        table.findSuffix data = some found
        → found.address = found.romAddress + found.romString.length - data.length
          ∧ HeldAt image base found.address data

-----------------------------------------------------------------------------------------
-- Chunks in image order
-----------------------------------------------------------------------------------------

/-- The strings with their offsets, where the first one stands at the given offset. -/
def placed (offset : Nat) (strings : List Bytes) : List Chunk :=
  (strings.foldl placeStep (offset, [])).2.reverse

theorem placed_cons (offset : Nat) (string : Bytes) (rest : List Bytes)
    : placed offset (string :: rest)
      = { offset, bytes := string } :: placed (offset + string.length) rest := by
  rw [placed, List.foldl_cons, placeStep, foldl_placeStep, List.reverse_append]
  rfl

/-- Strings are placed behind those before them, by induction on these. -/
theorem placed_append (offset : Nat) (strings more : List Bytes)
    : placed offset (strings ++ more)
      = placed offset strings ++ placed (offset + strings.flatten.length) more := by
  induction strings generalizing offset with
  | nil => rfl
  | cons string rest ih =>
      rw [List.cons_append, placed_cons, placed_cons, ih, List.flatten_cons, List.length_append,
        Nat.add_assoc, List.cons_append]

theorem le_of_mem_placed {offset : Nat} {strings : List Bytes} {chunk : Chunk}
    (member : chunk ∈ placed offset strings)
    : offset ≤ chunk.offset := by
  obtain ⟨before, _, -, place⟩ := mem_placed (List.mem_reverse.mp member)
  omega

/-- Strings that are not empty stand one behind the other, by induction on them. -/
theorem sorted_placed {strings : List Bytes} (nonempty : ∀ string ∈ strings, string ≠ [])
    (offset : Nat)
    : (placed offset strings).Pairwise fun chunk later => chunk.offset < later.offset := by
  induction strings generalizing offset with
  | nil => exact .nil
  | cons string rest ih =>
      obtain ⟨first, others⟩ := List.forall_mem_cons.mp nonempty
      rw [placed_cons]
      refine .cons (fun chunk member => ?_) (ih others _)
      have positive := List.length_pos_iff.mpr first
      exact Nat.lt_of_lt_of_le (Nat.lt_add_of_pos_right positive) (le_of_mem_placed member)

theorem IsString.ne_nil (isString : IsString data) : data ≠ [] := by
  obtain ⟨text, rfl, -⟩ := isString
  simp

theorem sorted_chunks (image : Bytes)
    : (chunks image).Pairwise fun chunk later => chunk.offset < later.offset :=
  sorted_placed (fun string member => (isString_splitImage image string member).ne_nil) 0

/-- The chunks of an image are the strings that stand where a string may start. All that comes
before such a place is made of strings, so the string there is split off right behind them.
-/
theorem mem_chunks_iff {chunk : Chunk}
    : chunk ∈ chunks image ↔ IsString chunk.bytes ∧ chunk.offset ∈ placesOf image chunk.bytes := by
  constructor
  · intro member
    obtain ⟨occurs, isString, starts⟩ := chunk_occurs member
    exact ⟨isString, occurs, starts⟩
  · obtain ⟨offset, data⟩ := chunk
    rintro ⟨isString, ⟨before, after, rfl, rfl⟩, starts⟩
    rw [List.append_assoc] at starts
    have none := trailing_of_startsString starts
    have front : (splitImage before).1.flatten = before := by
      have whole := flatten_splitImage before
      rwa [← trailing, none, List.append_nil] at whole
    have split : (splitImage (before ++ data ++ after)).1
        = (splitImage before).1 ++ data :: (splitImage after).1 := by
      have behind := splitImage_strings (isString_splitImage before) (data ++ after)
      rw [front, splitImage_string isString, ← List.append_assoc] at behind
      rw [behind]
    change _ ∈ placed 0 (splitImage (before ++ data ++ after)).1
    rw [split, placed_append, placed_cons, front, Nat.zero_add]
    exact List.mem_append_right _ List.mem_cons_self

-----------------------------------------------------------------------------------------
-- Addresses
-----------------------------------------------------------------------------------------

/-- A string has the address of its last place. Behind the chunk that is found none has the same
bytes, and those before it have smaller offsets.
-/
theorem lookup_isGreatest {address : Address}
    (found : (Table.ofImage image base).lookup data = some address)
    : IsString data
      ∧ ∃ offset,
          address = ((base + offset : Nat) : Int) ∧ IsGreatest (placesOf image data) offset := by
  obtain ⟨⟨offset, own⟩, last, rfl⟩ := Option.map_eq_some_iff.mp found
  obtain ⟨same, later, before, split, none⟩ := List.find?_eq_some_iff_append.mp last
  obtain rfl : own = data := by simpa using same
  have order : chunks image = before.reverse ++ { offset, bytes := own } :: later.reverse := by
    rw [← List.reverse_reverse (chunks image)]
    exact (congrArg List.reverse split).trans (by simp)
  have member : { offset, bytes := own } ∈ chunks image := by simp [order]
  obtain ⟨isString, place⟩ := mem_chunks_iff.mp member
  refine ⟨isString, offset, rfl, place, fun other known => ?_⟩
  have listed : { offset := other, bytes := own } ∈ chunks image :=
    mem_chunks_iff.mpr ⟨isString, known⟩
  have sorted := sorted_chunks image
  rw [order] at listed sorted
  rcases List.mem_append.mp listed with earlier | listed
  · have before := (List.pairwise_append.mp sorted).2.2 _ earlier _ List.mem_cons_self
    exact Nat.le_of_lt before
  · rcases List.mem_cons.mp listed with here | behind
    · cases here
      exact Nat.le_refl _
    · have apart := none _ (List.mem_reverse.mp behind)
      simp at apart

theorem lookup_eq_some_iff {offset : Nat}
    : (Table.ofImage image base).lookup data = some ((base + offset : Nat) : Int)
      ↔ IsString data ∧ IsGreatest (placesOf image data) offset := by
  constructor
  · intro found
    obtain ⟨isString, place, same, greatest⟩ := lookup_isGreatest found
    obtain rfl : offset = place := Nat.add_left_cancel (Int.ofNat.inj same)
    exact ⟨isString, greatest⟩
  · rintro ⟨isString, greatest⟩
    have listed : data ∈ (Table.ofImage image base).strings :=
      mem_strings_iff_occurs.mpr ⟨isString, offset, greatest.1⟩
    obtain ⟨address, found⟩ :=
      Option.isSome_iff_exists.mp (Table.mem_strings_iff.mp listed)
    obtain ⟨-, place, rfl, last⟩ := lookup_isGreatest found
    rw [found, last.unique greatest]

-----------------------------------------------------------------------------------------
-- Order
-----------------------------------------------------------------------------------------

/-- Without repetitions, strings stand in the order of the chunks that hold each of them first, by
recursion on the chunks that hold other strings than the first one.
-/
theorem exists_firsts {all : List Chunk}
    (sorted : all.Pairwise fun chunk later => chunk.offset < later.offset)
    : ∃ firsts : List Chunk,
        firsts.map Chunk.bytes = (all.map Chunk.bytes).eraseDups
        ∧ firsts.Sublist all
        ∧ ∀ first ∈ firsts, ∀ other ∈ all,
            other.bytes = first.bytes → first.offset ≤ other.offset := by
  match all with
  | [] => exact ⟨[], rfl, .slnil, List.forall_mem_nil _⟩
  | chunk :: rest =>
      obtain ⟨behind, sorted⟩ := List.pairwise_cons.mp sorted
      obtain ⟨firsts, distinct, within, least⟩ :=
        exists_firsts (sorted.filter fun other => !other.bytes == chunk.bytes)
      refine ⟨chunk :: firsts, ?_, (within.trans List.filter_sublist).cons_cons chunk, ?_⟩
      · rw [List.map_cons, distinct, List.map_cons, List.eraseDups_cons, List.filter_map]
        rfl
      · intro first member other known same
        rcases List.mem_cons.mp member with rfl | member
        · rcases List.mem_cons.mp known with rfl | known
          · exact Nat.le_refl _
          · exact Nat.le_of_lt (behind other known)
        · have apart : first.bytes ≠ chunk.bytes := by
            simpa using (List.mem_filter.mp (within.subset member)).2
          rcases List.mem_cons.mp known with rfl | known
          · exact absurd same.symm apart
          · refine least first member other (List.mem_filter.mpr ⟨known, ?_⟩) same
            simpa [same] using apart
termination_by all.length
decreasing_by exact Nat.lt_succ_of_le (List.length_filter_le _ _)

/-- What is found first among strings is found first among them without repetitions, by recursion on
those that differ from the first one.
-/
theorem find?_eraseDups (form : Bytes → Bool) (strings : List Bytes)
    : strings.eraseDups.find? form = strings.find? form := by
  match strings with
  | [] => rfl
  | string :: rest =>
      rw [List.eraseDups_cons, List.find?_cons, List.find?_cons]
      cases fits : form string with
      | true => rfl
      | false =>
          simp only
          rw [find?_eraseDups form (rest.filter fun other => !other == string), List.find?_filter]
          congr 1
          funext other
          by_cases same : other = string
          · simp [same, fits]
          · simp [same]
termination_by strings.length
decreasing_by exact Nat.lt_succ_of_le (List.length_filter_le _ _)

theorem strings_sorted (image : Bytes) (base : Nat)
    : (Table.ofImage image base).strings.Pairwise (StandsBefore image) := by
  have sorted := sorted_chunks image
  obtain ⟨firsts, distinct, within, least⟩ := exists_firsts sorted
  rw [Table.strings, distinct_eq_eraseDups, Table.ofImage, ← distinct, List.pairwise_map]
  have isLeast : ∀ first ∈ firsts, IsLeast (placesOf image first.bytes) first.offset := by
    intro first member
    obtain ⟨isString, place⟩ := mem_chunks_iff.mp (within.subset member)
    exact ⟨place, fun other known =>
      least first member { offset := other, bytes := first.bytes }
        (mem_chunks_iff.mpr ⟨isString, known⟩) rfl⟩
  refine (sorted.sublist within).imp_of_mem fun first next before => ?_
  exact ⟨_, _, isLeast _ first, isLeast _ next, before⟩

-----------------------------------------------------------------------------------------
-- Tails
-----------------------------------------------------------------------------------------

/-- A tail is searched among the distinct strings as it is among all of them. -/
theorem find?_strings (table : Table) (data : Bytes)
    : table.strings.find? (fun string => decide (EndsWith data string))
      = (table.chunks.find? (Table.endsWith data)).map Chunk.bytes := by
  rw [Table.strings, distinct_eq_eraseDups, find?_eraseDups, List.find?_map]
  congr 2
  funext chunk
  rw [Bool.eq_iff_iff, Table.endsWith_iff, Function.comp_apply, decide_eq_true_iff]
  rfl

theorem findSuffix_eq (table : Table) (remains : data ≠ [])
    : table.findSuffix data
      = (table.strings.find? fun string => decide (EndsWith data string)).bind fun string =>
          (table.lookup string).map fun romAddress =>
            { romString := string, romAddress, skip := string.length - data.length } := by
  rw [find?_strings, Table.findSuffix, if_neg (by simpa using remains), Option.bind_map]
  simp only [Option.map_eq_bind]
  rfl

theorem findSuffix_eq_some_iff {table : Table} (remains : data ≠ []) {found : SuffixMatch}
    : table.findSuffix data = some found ↔ FirstTail table data found := by
  rw [findSuffix_eq table remains, Option.bind_eq_some_iff]
  constructor
  · rintro ⟨string, first, known⟩
    obtain ⟨address, located, rfl⟩ := Option.map_eq_some_iff.mp known
    obtain ⟨ends, before, after, split, none⟩ := List.find?_eq_some_iff_append.mp first
    exact {
      first := ⟨before, after, split, by simpa using ends, by simpa using none⟩
      located := located
      skip := rfl
    }
  · obtain ⟨string, address, skip⟩ := found
    rintro ⟨⟨before, after, split, ends, none⟩, located, skips⟩
    obtain rfl : skip = string.length - data.length := skips
    have first
        : table.strings.find? (fun string => decide (EndsWith data string)) = some string :=
      List.find?_eq_some_iff_append.mpr
        ⟨by simpa using ends, before, after, split, by simpa using none⟩
    exact ⟨string, first, Option.map_eq_some_iff.mpr ⟨address, located, rfl⟩⟩

/-- Every string of a table can be looked up, so a tail that is one is found. -/
theorem findSuffix_eq_none_iff {table : Table} (remains : data ≠ [])
    : table.findSuffix data = none ↔ ∀ string ∈ table.strings, ¬EndsWith data string := by
  rw [findSuffix_eq table remains]
  cases first : table.strings.find? fun string => decide (EndsWith data string) with
  | none => simpa using List.find?_eq_none.mp first
  | some string =>
      have listed := List.mem_of_find?_eq_some first
      have ends : EndsWith data string := by simpa using List.find?_some first
      obtain ⟨address, located⟩ := Option.isSome_iff_exists.mp (Table.mem_strings_iff.mp listed)
      rw [Option.bind_some, located]
      exact iff_of_false nofun fun none => none string listed ends

theorem heldAt_of_findSuffix {found : SuffixMatch}
    (known : (Table.ofImage image base).findSuffix data = some found)
    : HeldAt image base found.address data := by
  have matched : (Table.ofImage image base).matchSuffix data
      = some { address := found.address, kind := .suffix, romString := found.romString } := by
    rw [Table.matchSuffix, known]
    rfl
  exact (matchSuffix_sound matched).1

/-- An image is read into the table of just the strings that it holds. The table is filled in one
pass, string by string; what is said of it here is said of places in the image alone.
-/
theorem load_indexes (image : Bytes) (base : Nat)
    : ∃ table, Table.load image base = .ok table ∧ Indexes image base table := by
  refine ⟨Table.ofImage image base, rfl, ?_⟩
  exact {
    last := fun data offset => lookup_eq_some_iff
    inside := fun data address found => by
      obtain ⟨-, offset, place, -⟩ := lookup_isGreatest found
      exact ⟨offset, place⟩
    listed := fun data => mem_strings_iff_occurs
    once := by
      refine (strings_sorted image base).imp fun before same => ?_
      subst same
      exact before.irrefl
    order := strings_sorted image base
    tail := fun data found remains => findSuffix_eq_some_iff remains
    noTail := fun data remains => findSuffix_eq_none_iff remains
    nothing := rfl
    held := fun data found known => by
      refine ⟨?_, heldAt_of_findSuffix known⟩
      have remains : data ≠ [] := by
        rintro rfl
        cases known
      obtain ⟨⟨-, -, -, ⟨longer, -⟩, -⟩, -, skip⟩ := (findSuffix_eq_some_iff remains).mp known
      rw [SuffixMatch.address, skip, Int.ofNat_sub (Nat.le_of_lt longer), Int.add_sub_assoc]
  }

end RomStrings.Rom
