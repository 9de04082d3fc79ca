import RomStrings.Rom.Chunk
import Std.Data.HashMap

/-!
Where each string of an image starts for the last time. A map is filled in one pass, so a large
image needs no search for every string.
-/

namespace RomStrings.Rom

/-- Note where one more chunk starts, in place of an earlier one with the same bytes. -/
def noteOffset (offsets : Std.HashMap Bytes Nat) (chunk : Chunk) : Std.HashMap Bytes Nat :=
  offsets.insert chunk.bytes chunk.offset

/-- The last offset of every string. -/
def lastOffsets (chunks : List Chunk) : Std.HashMap Bytes Nat :=
  chunks.foldl noteOffset {}

/-- The last chunk with the bytes decides, and without one what was noted before, by induction on
the chunks.
-/
theorem getElem?_foldl_noteOffset (chunks : List Chunk) (offsets : Std.HashMap Bytes Nat)
    (data : Bytes)
    : (chunks.foldl noteOffset offsets)[data]?
      = ((chunks.reverse.find? fun chunk => chunk.bytes == data).map Chunk.offset).or
          offsets[data]? := by
  induction chunks generalizing offsets with
  | nil => simp
  | cons chunk rest ih =>
      rw [List.foldl_cons, ih, List.reverse_cons, List.find?_append]
      cases rest.reverse.find? fun chunk => chunk.bytes == data with
      | some found => simp
      | none =>
          by_cases same : chunk.bytes = data
          · simp [noteOffset, same]
          · simp [noteOffset, Std.HashMap.getElem?_insert, same]

/-- The last offset of a string is that of the last chunk with its bytes. -/
theorem getElem?_lastOffsets (chunks : List Chunk) (data : Bytes)
    : (lastOffsets chunks)[data]?
      = (chunks.reverse.find? fun chunk => chunk.bytes == data).map Chunk.offset := by
  simp [lastOffsets, getElem?_foldl_noteOffset]

end RomStrings.Rom
