/-!
Numerals in a base of at most sixteen: the value of a digit of either letter case, the value of a
run of digits, and the lowercase numeral of a number, padded to a least width on request.
-/

namespace RomStrings.Text

/-- The value of a hexadecimal digit of either letter case. -/
def hexDigit? (c : Char) : Option Nat :=
  if '0' ≤ c ∧ c ≤ '9' then some (c.toNat - '0'.toNat)
  else if 'a' ≤ c ∧ c ≤ 'f' then some (c.toNat - 'a'.toNat + 10)
  else if 'A' ≤ c ∧ c ≤ 'F' then some (c.toNat - 'A'.toNat + 10)
  else none

def digit? (base : Nat) (c : Char) : Option Nat :=
  (hexDigit? c).filter (· < base)

def isDigit (base : Nat) (c : Char) : Bool :=
  (digit? base c).isSome

/-- The number that a run of digits of the base denotes, first digit highest. -/
def numeralValue (base : Nat) (digits : List Char) : Nat :=
  digits.foldl (fun value c => value * base + (digit? base c).getD 0) 0

/-- The lowercase hexadecimal numeral of a number. -/
def hexNumeral (n : Nat) : List Char :=
  Nat.toDigits 16 n

/-- The lowercase hexadecimal numeral of a number, with leading zeros up to the width. -/
def paddedHex (width n : Nat) : List Char :=
  List.replicate (width - (hexNumeral n).length) '0' ++ hexNumeral n

end RomStrings.Text
