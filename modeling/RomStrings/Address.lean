import RomStrings.Text.Characters
import RomStrings.Text.Numeral
import RomStrings.Text.Quoted

/-!
Absolute addresses: the text written into assembly, and the three spellings that a person may give
(decimal, `0x` and `$` hexadecimal). What is written reads back.
-/

namespace RomStrings

open Text

/-- A place in memory. Only a ROM image's base is known to be non-negative. -/
abbrev Address := Int

namespace Address

/-- The text of an address in assembly: lowercase hexadecimal behind `0x`. -/
def text : Address → String
  | .ofNat n => "0x" ++ String.ofList (hexNumeral n)
  | .negSucc n => "0x-" ++ String.ofList (hexNumeral (n + 1))

/-- Why a text is no address. -/
inductive ReadError where
  | notNumeral (stripped : String)
  | tooManyDigits (count : Nat)
  deriving DecidableEq, Repr

/-- The most digits that a decimal spelling may have. -/
def maxDecimalDigits : Nat := 4300

def ReadError.message : ReadError → String
  | .notNumeral stripped => "invalid address literal: " ++ quoted stripped
  | .tooManyDigits count =>
      "Exceeds the limit (4300 digits) for integer string conversion: value has "
        ++ toString count
        ++ " digits; use sys.set_int_max_str_digits() to increase the limit"

/-- The digits of a spelling and the base its mark announces. -/
def spelling : List Char → Nat × List Char
  | '$' :: digits => (16, digits)
  | '0' :: 'x' :: digits => (16, digits)
  | '0' :: 'X' :: digits => (16, digits)
  | digits => (10, digits)

/-- Read an address. Blanks around it are skipped; signs and separators are refused. -/
def read (given : String) : Except ReadError Nat :=
  let stripped := strip given.toList
  let (base, digits) := spelling stripped
  if digits.isEmpty || !digits.all (isDigit base) then
    .error (.notNumeral (String.ofList stripped))
  else if base = 10 ∧ maxDecimalDigits < digits.length then
    .error (.tooManyDigits digits.length)
  else
    .ok (numeralValue base digits)

end Address

end RomStrings
