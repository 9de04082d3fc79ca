import RomStrings.Text.Latin1

/-!
The strings of a ROM image. Every zero byte ends a string, and the next one starts right behind it;
what follows the last zero byte is no string.
-/

namespace RomStrings.Rom

/-- A string of an image, its zero byte included, and where it starts. -/
structure Chunk where
  offset : Nat
  bytes : Bytes
  deriving DecidableEq, Repr

/-- Put one more byte before an image that is split already into strings and a rest. -/
def splitStep (b : UInt8) : List Bytes × Bytes → List Bytes × Bytes
  | (strings, rest) =>
      if b = 0 then ([0] :: strings, rest)
      else
        match strings with
        | [] => ([], b :: rest)
        | first :: others => ((b :: first) :: others, rest)

/-- The strings of an image in order, and the bytes behind the last of them. -/
def splitImage (image : Bytes) : List Bytes × Bytes :=
  image.foldr splitStep ([], [])

/-- An image is split by putting its first byte before the split of the rest. -/
theorem splitImage_cons (b : UInt8) (rest : Bytes)
    : splitImage (b :: rest) = splitStep b (splitImage rest) :=
  rfl

/-- The strings of an image and the bytes behind them make up the image, by induction on it. -/
theorem flatten_splitImage (image : Bytes)
    : (splitImage image).1.flatten ++ (splitImage image).2 = image := by
  induction image with
  | nil => rfl
  | cons b rest ih =>
      rw [splitImage_cons]
      generalize splitImage rest = parts at ih
      obtain ⟨strings, tail⟩ := parts
      simp only [splitStep]
      split
      next zero => simpa [zero] using ih
      next =>
        cases strings with
        | nil => simpa using ih
        | cons first others => simpa using ih

/-- Place one more string behind those placed already, given where they end, the last one first. -/
def placeStep (placed : Nat × List Chunk) (string : Bytes) : Nat × List Chunk :=
  (placed.1 + string.length, { offset := placed.1, bytes := string } :: placed.2)

/-- The strings of an image, each with its offset. -/
def chunks (image : Bytes) : List Chunk :=
  ((splitImage image).1.foldl placeStep (0, [])).2.reverse

/-- Placing strings behind others leaves those as they are, by induction on the strings. -/
theorem foldl_placeStep (strings : List Bytes) (offset : Nat) (placed : List Chunk)
    : (strings.foldl placeStep (offset, placed)).2
      = (strings.foldl placeStep (offset, [])).2 ++ placed := by
  induction strings generalizing offset placed with
  | nil => rfl
  | cons string rest ih =>
      simp only [List.foldl_cons, placeStep]
      rw [ih, ih _ [_]]
      simp

/-- Placing strings changes none of them, by induction on the strings. -/
theorem map_bytes_placed (strings : List Bytes) (offset : Nat)
    : (strings.foldl placeStep (offset, [])).2.reverse.map Chunk.bytes = strings := by
  induction strings generalizing offset with
  | nil => rfl
  | cons string rest ih =>
      simp only [List.foldl_cons, placeStep]
      rw [foldl_placeStep]
      simp [ih]

/-- The chunks hold the strings of the image. -/
theorem map_bytes_chunks (image : Bytes)
    : (chunks image).map Chunk.bytes = (splitImage image).1 :=
  map_bytes_placed (splitImage image).1 0

/-- The bytes behind the last string of an image. -/
def trailing (image : Bytes) : Bytes :=
  (splitImage image).2

end RomStrings.Rom
