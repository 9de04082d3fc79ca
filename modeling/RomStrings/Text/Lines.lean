import RomStrings.Text.Split

/-!
The lines of a text. A line ends with a line feed, a carriage return, or the pair of them; a text
is put together again with line feeds, and with one at its end if it had one there.
-/

namespace RomStrings.Text

/-- A text read so far, last character first, and whether that was a carriage return. -/
structure Breaks where
  reversed : List Char
  afterReturn : Bool

/-- Read one more character: a carriage return counts as a line feed, and a line feed right behind
one adds nothing.
-/
def Breaks.read (breaks : Breaks) (c : Char) : Breaks :=
  if c = '\r' then { reversed := '\n' :: breaks.reversed, afterReturn := true }
  else if c = '\n' ∧ breaks.afterReturn then { breaks with afterReturn := false }
  else { reversed := c :: breaks.reversed, afterReturn := false }

/-- The text with a line feed for every line break. -/
def unifyBreaks (text : List Char) : List Char :=
  (text.foldl Breaks.read { reversed := [], afterReturn := false }).reversed.reverse

/-- What is read behind earlier characters does not depend on them, by induction on the text. -/
theorem reversed_foldl_read (text : List Char) (breaks : Breaks)
    : (text.foldl Breaks.read breaks).reversed
      = (text.foldl Breaks.read { breaks with reversed := [] }).reversed ++ breaks.reversed := by
  induction text generalizing breaks with
  | nil => simp
  | cons c rest ih =>
      rw [List.foldl_cons, List.foldl_cons, ih, ih (Breaks.read _ c)]
      simp only [Breaks.read]
      split
      · simp
      · split <;> simp

/-- A character that is no carriage return is kept. -/
theorem unifyBreaks_cons {c : Char} (h : c ≠ '\r') (rest : List Char)
    : unifyBreaks (c :: rest) = c :: unifyBreaks rest := by
  simp [unifyBreaks, Breaks.read, h,
    reversed_foldl_read rest { reversed := [c], afterReturn := false }]

/-- A carriage return and a line feed make one line feed. -/
theorem unifyBreaks_pair (rest : List Char)
    : unifyBreaks ('\r' :: '\n' :: rest) = '\n' :: unifyBreaks rest := by
  simp [unifyBreaks, Breaks.read,
    reversed_foldl_read rest { reversed := ['\n'], afterReturn := false }]

/-- Any other carriage return makes a line feed, by cases on what follows it. -/
theorem unifyBreaks_return {rest : List Char} (h : rest.head? ≠ some '\n')
    : unifyBreaks ('\r' :: rest) = '\n' :: unifyBreaks rest := by
  cases rest with
  | nil => rfl
  | cons c rest =>
      have hc : c ≠ '\n' := by simpa using h
      simp only [unifyBreaks, List.foldl_cons, Breaks.read, if_true]
      split
      · simp [reversed_foldl_read rest { reversed := ['\n', '\n'], afterReturn := true },
          reversed_foldl_read rest { reversed := ['\n'], afterReturn := true }]
      · simp [hc, reversed_foldl_read rest { reversed := [c, '\n'], afterReturn := false },
          reversed_foldl_read rest { reversed := [c], afterReturn := false }]

/-- The lines of a text, and whether the last of them is ended by a line break. -/
structure Framed where
  lines : List (List Char)
  ended : Bool
  deriving DecidableEq, Repr

def frame (text : List Char) : Framed :=
  let parts := split '\n' (unifyBreaks text)
  if parts.getLast? = some [] then { lines := parts.dropLast, ended := true }
  else { lines := parts, ended := false }

/-- Put a text together. No lines make an empty text. -/
def Framed.text (framed : Framed) : List Char :=
  if framed.lines.isEmpty then []
  else join '\n' framed.lines ++ (if framed.ended then ['\n'] else [])

end RomStrings.Text
