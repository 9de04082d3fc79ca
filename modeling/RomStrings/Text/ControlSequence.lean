import RomStrings.Text.Split

/-!
Control sequences, which colour a terminal or move its cursor: the escape character, an opening
bracket, parameters, and a letter that ends the sequence. A text can be shown without them, and
anything less than a whole sequence stays.
-/

namespace RomStrings.Text

/-- The character that starts a control sequence. -/
def escapeChar : Char := '\x1b'

/-- A character that may stand between the bracket and the letter of a control sequence. -/
def isSequenceParameter (c : Char) : Bool :=
  c.isDigit || c = ';' || c = '?'

/-- What follows the control sequence whose escape character stands before the text. -/
def afterSequence? : List Char → Option (List Char)
  | '[' :: body =>
      match body.dropWhile isSequenceParameter with
      | letter :: rest => if letter.isAlpha then some rest else none
      | [] => none
  | _ => none

/-- An escape character and the text behind it, less the control sequence that they may start. -/
def plainBehindEscape (text : List Char) : List Char :=
  (afterSequence? text).getD (escapeChar :: text)

/-- The text without its control sequences. No sequence reaches past the next escape character, so
each is looked for between two of them.
-/
def withoutControlSequences (text : List Char) : List Char :=
  match split escapeChar text with
  | [] => []
  | start :: parts => start ++ parts.flatMap plainBehindEscape

/-- A text without escape characters is shown whole: it is its own only part. -/
theorem withoutControlSequences_eq_self {text : List Char} (absent : escapeChar ∉ text)
    : withoutControlSequences text = text := by
  simp [withoutControlSequences, split_eq_singleton absent]

end RomStrings.Text
