import Mathlib.Data.List.Chain
import RomStrings.Proofs.Rom.Index

/-!
The strings of an image cut it up. They stand one behind the other from its start on, one for each
of its zero bytes, and what is left behind the last holds no zero byte. No other chunks cut it up
so, and a search for one zero byte after the other finds these.
-/

namespace RomStrings.Rom

variable {image : Bytes}

/-- The chunks cut the image up, behind each of its zero bytes. -/
structure CutsUp (image : Bytes) (chunks : List Chunk) : Prop where
  /-- Each chunk ends with a zero byte and holds no other. -/
  strings : ∀ chunk ∈ chunks, IsString chunk.bytes
  /-- The first one starts where the image does. -/
  first : ∀ chunk ∈ chunks.head?, chunk.offset = 0
  /-- Every other one starts where the one before it ends. -/
  consecutive
    : chunks.IsChain fun chunk next => next.offset = chunk.offset + chunk.bytes.length
  /-- There are as many of them as zero bytes. -/
  counted : chunks.length = image.count 0
  /-- Together with a rest that holds no zero byte they make up the image. -/
  whole : ∃ rest, 0 ∉ rest ∧ (chunks.map Chunk.bytes).flatten ++ rest = image

-----------------------------------------------------------------------------------------
-- Places
-----------------------------------------------------------------------------------------

theorem head?_placed {offset : Nat} {strings : List Bytes}
    : ∀ chunk ∈ (placed offset strings).head?, chunk.offset = offset := by
  cases strings with
  | nil => simp [placed]
  | cons string rest => simp [placed_cons]

/-- Strings are placed one behind the other, by induction on them. -/
theorem isChain_placed (offset : Nat) (strings : List Bytes)
    : (placed offset strings).IsChain fun chunk next =>
        next.offset = chunk.offset + chunk.bytes.length := by
  induction strings generalizing offset with
  | nil => exact .nil
  | cons string rest ih =>
      rw [placed_cons, List.isChain_cons]
      exact ⟨head?_placed, ih _⟩

/-- Chunks that stand one behind the other are placed as their strings are, by induction on them. -/
theorem placed_map_bytes {offset : Nat} {chunks : List Chunk}
    (first : ∀ chunk ∈ chunks.head?, chunk.offset = offset)
    (consecutive
      : chunks.IsChain fun chunk next => next.offset = chunk.offset + chunk.bytes.length)
    : placed offset (chunks.map Chunk.bytes) = chunks := by
  induction chunks generalizing offset with
  | nil => rfl
  | cons chunk rest ih =>
      obtain rfl : chunk.offset = offset := first chunk rfl
      obtain ⟨next, consecutive⟩ := List.isChain_cons.mp consecutive
      rw [List.map_cons, placed_cons, ih next consecutive]

-----------------------------------------------------------------------------------------
-- Zero bytes
-----------------------------------------------------------------------------------------

/-- Bytes without a zero byte hold no string, by induction on them. -/
theorem splitImage_of_plain {rest : Bytes} (plain : 0 ∉ rest) : splitImage rest = ([], rest) := by
  induction rest with
  | nil => rfl
  | cons b rest ih =>
      rw [List.mem_cons, not_or] at plain
      rw [splitImage_cons, ih plain.2]
      simp [splitStep, Ne.symm plain.1]

/-- Strings hold one zero byte each, by induction on them. -/
theorem count_flatten_strings {strings : List Bytes}
    (areStrings : ∀ string ∈ strings, IsString string)
    : strings.flatten.count 0 = strings.length := by
  induction strings with
  | nil => rfl
  | cons string rest ih =>
      obtain ⟨⟨text, rfl, plain⟩, others⟩ := List.forall_mem_cons.mp areStrings
      rw [List.flatten_cons, List.count_append, ih others, List.count_append,
        List.count_eq_zero.mpr plain, List.length_cons]
      simp [Nat.add_comm]

theorem length_chunks (image : Bytes) : (chunks image).length = image.count 0 := by
  have whole : (splitImage image).1.flatten ++ trailing image = image := flatten_splitImage image
  calc (chunks image).length
      = (splitImage image).1.length := by rw [← map_bytes_chunks, List.length_map]
    _ = ((splitImage image).1.flatten ++ trailing image).count 0 := by
        rw [List.count_append, count_flatten_strings (isString_splitImage image),
          List.count_eq_zero.mpr (zero_not_mem_trailing image), Nat.add_zero]
    _ = image.count 0 := by rw [whole]

-----------------------------------------------------------------------------------------
-- Search
-----------------------------------------------------------------------------------------

/-- Where the next zero byte stands, from the place on. -/
def nextZero? (image : Bytes) (start : Nat) : Option Nat :=
  ((image.drop start).idxOf? 0).map (start + ·)

/-- From the place on, the image goes on with the string that the next zero byte ends. -/
theorem string_of_nextZero? {start stop : Nat} (found : nextZero? image start = some stop)
    : ∃ text,
        0 ∉ text
        ∧ stop = start + text.length
        ∧ image.drop start = (text ++ [0]) ++ image.drop (stop + 1) := by
  obtain ⟨length, first, rfl⟩ := Option.map_eq_some_iff.mp found
  obtain ⟨bound, zero, before⟩ := List.idxOf?_eq_some_iff.mp first
  refine ⟨(image.drop start).take length, fun member => ?_, ?_, ?_⟩
  · obtain ⟨index, inside, here⟩ := List.mem_iff_getElem.mp member
    rw [List.length_take] at inside
    rw [List.getElem_take] at here
    exact before index (by omega) here
  · rw [List.length_take, Nat.min_eq_left (Nat.le_of_lt bound)]
  · have split := List.take_append_drop length (image.drop start)
    rw [List.drop_eq_getElem_cons bound, zero, List.drop_drop] at split
    rw [List.append_assoc, List.singleton_append, Nat.add_assoc]
    exact split.symm

theorem bounds_of_nextZero? {start stop : Nat} (found : nextZero? image start = some stop)
    : start ≤ stop ∧ stop < image.length := by
  obtain ⟨text, -, rfl, split⟩ := string_of_nextZero? found
  have length := congrArg List.length split
  simp only [List.length_drop, List.length_append, List.length_singleton] at length
  omega

/-- The chunks found by a search for one zero byte after the other. Every turn starts further on,
right behind the zero byte that the one before it found, so the search comes to an end.
-/
def searchFrom (image : Bytes) (start : Nat) : List Chunk :=
  match found : nextZero? image start with
  | none => []
  | some stop =>
      { offset := start, bytes := (image.take (stop + 1)).drop start }
        :: searchFrom image (stop + 1)
termination_by image.length - start
decreasing_by
  obtain ⟨onward, inside⟩ := bounds_of_nextZero? found
  omega

/-- The search finds the strings of the part of the image that it starts at, by induction on its
turns.
-/
theorem searchFrom_eq (image : Bytes) (start : Nat)
    : searchFrom image start = placed start (splitImage (image.drop start)).1 := by
  induction start using searchFrom.induct image with
  | case1 start none =>
      have plain : 0 ∉ image.drop start :=
        List.idxOf?_eq_none_iff.mp (Option.map_eq_none_iff.mp none)
      rw [searchFrom, splitImage_of_plain plain]
      split
      next => rfl
      next found => rw [none] at found; cases found
  | case2 start stop found ih =>
      obtain ⟨text, plain, place, split⟩ := string_of_nextZero? found
      have length : stop + 1 - start = (text ++ [0]).length := by
        rw [place, List.length_append, List.length_singleton]
        omega
      have string : (image.take (stop + 1)).drop start = text ++ [0] := by
        rw [List.drop_take, split, length, List.take_left]
      have behind : stop + 1 = start + (text ++ [0]).length := by omega
      rw [split, splitImage_string ⟨text, rfl, plain⟩, placed_cons, ← behind, ← ih, searchFrom]
      split
      next none => rw [found] at none; cases none
      next other here =>
        obtain rfl : stop = other := Option.some.inj (found.symm.trans here)
        rw [string]

-----------------------------------------------------------------------------------------
-- The only chunks that cut an image up
-----------------------------------------------------------------------------------------

theorem cutsUp_chunks (image : Bytes) : CutsUp image (chunks image) where
  strings _ member := (mem_chunks_iff.mp member).1
  first := head?_placed
  consecutive := isChain_placed 0 (splitImage image).1
  counted := length_chunks image
  whole := by
    rw [map_bytes_chunks]
    exact ⟨trailing image, zero_not_mem_trailing image, flatten_splitImage image⟩

/-- The strings of chunks that cut an image up are split off it, and the rest holds no more. -/
theorem CutsUp.eq_chunks {list : List Chunk} (cuts : CutsUp image list) : list = chunks image := by
  obtain ⟨rest, plain, whole⟩ := cuts.whole
  have areStrings : ∀ string ∈ list.map Chunk.bytes, IsString string := by
    intro string member
    obtain ⟨chunk, known, rfl⟩ := List.mem_map.mp member
    exact cuts.strings chunk known
  have split : (splitImage image).1 = list.map Chunk.bytes := by
    rw [← whole, splitImage_strings areStrings, splitImage_of_plain plain, List.append_nil]
  calc list
      = placed 0 (list.map Chunk.bytes) := (placed_map_bytes cuts.first cuts.consecutive).symm
    _ = chunks image := by rw [← split]; rfl

/-- The strings of an image cut it up, no other chunks do, and the search for its zero bytes finds
them.
-/
theorem chunks_cut_up (image : Bytes)
    : (∀ list, CutsUp image list ↔ list = chunks image) ∧ searchFrom image 0 = chunks image := by
  refine ⟨fun list => ⟨CutsUp.eq_chunks, ?_⟩, searchFrom_eq image 0⟩
  rintro rfl
  exact cutsUp_chunks image

/-- Zero bytes in a row end strings of no text, and what breaks off is no string. -/
example
    : chunks [0, 0, 104, 105, 0, 33]
      = [{ offset := 0, bytes := [0] }, { offset := 1, bytes := [0] },
          { offset := 2, bytes := [104, 105, 0] }] := by
  decide

end RomStrings.Rom
