/-!
Splitting a text at every occurrence of one character, and joining the parts again. A text with `n`
separators has `n + 1` parts, so the empty text has one.
-/

namespace RomStrings.Text

/-- Put one more character before a text that is split already. -/
def splitStep (separator c : Char) : List (List Char) → List (List Char)
  | [] => [[c]]
  | part :: parts => if c = separator then [] :: part :: parts else (c :: part) :: parts

/-- The parts between the separators. -/
def split (separator : Char) (text : List Char) : List (List Char) :=
  text.foldr (splitStep separator) [[]]

/-- A text is split by putting its first character before the split of the rest. -/
theorem split_cons (separator c : Char) (rest : List Char)
    : split separator (c :: rest) = splitStep separator c (split separator rest) :=
  rfl

/-- A text without the separator is its own only part, by induction on it. -/
theorem split_eq_singleton {separator : Char} {text : List Char} (absent : separator ∉ text)
    : split separator text = [text] := by
  induction text with
  | nil => rfl
  | cons c rest ih =>
      have different : c ≠ separator := fun same => absent (by simp [same])
      have later : separator ∉ rest := fun member => absent (List.mem_cons_of_mem c member)
      rw [split_cons, ih later]
      simp [splitStep, different]

/-- There is always a part, by cases on the first character. -/
theorem split_ne_nil (separator : Char) (text : List Char)
    : split separator text ≠ [] := by
  cases text with
  | nil => simp [split]
  | cons c rest =>
      rw [split_cons]
      cases split separator rest with
      | nil => simp [splitStep]
      | cons part parts =>
          simp only [splitStep]
          split <;> simp

def join (separator : Char) (parts : List (List Char)) : List Char :=
  (parts.intersperse [separator]).flatten

/-- The parts of a text make up the text again, by induction on it. -/
theorem join_split (separator : Char) (text : List Char)
    : join separator (split separator text) = text := by
  induction text with
  | nil => rfl
  | cons c rest ih =>
      have found := split_ne_nil separator rest
      rw [split_cons]
      generalize split separator rest = parts at ih found
      cases parts with
      | nil => contradiction
      | cons part parts =>
          simp only [splitStep]
          split
          next same =>
            subst same
            cases parts <;> simp_all [join, List.intersperse]
          next => cases parts <;> simp_all [join, List.intersperse]

end RomStrings.Text
