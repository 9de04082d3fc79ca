import Mathlib.Data.List.Induction
import Mathlib.Data.Nat.Digits.Defs
import RomStrings.Text.Numeral

/-!
Digits and what they denote. A character is a digit of a base by a table, and a run of digits has
its value by position.
-/

namespace RomStrings.Text

def octalDigits : List Char := ['0', '1', '2', '3', '4', '5', '6', '7']

def decimalDigits : List Char := octalDigits ++ ['8', '9']

def hexDigits : List Char :=
  octalDigits ++ ['8', '9', 'a', 'b', 'c', 'd', 'e', 'f', 'A', 'B', 'C', 'D', 'E', 'F']

/-- The place of a digit among the lowercase ones. -/
def digitValue (c : Char) : Nat :=
  ['0', '1', '2', '3', '4', '5', '6', '7', '8', '9', 'a', 'b', 'c', 'd', 'e', 'f'].idxOf c.toLower

/-- The number that the digits denote, the last of them with the lowest place value. -/
def runValue (base : Nat) (digits : List Char) : Nat :=
  Nat.ofDigits base (digits.map digitValue).reverse

-----------------------------------------------------------------------------------------
-- Digits
-----------------------------------------------------------------------------------------

theorem lt_of_hexDigit? {c : Char} {value : Nat} (found : hexDigit? c = some value)
    : c.toNat < 128 := by
  have below (top : Char) (ascii : top.toNat < 128) (bound : c ≤ top) : c.toNat < 128 :=
    Nat.lt_of_le_of_lt bound ascii
  simp only [hexDigit?] at found
  split at found
  next range => exact below '9' (by decide) range.2
  next =>
    split at found
    next range => exact below 'f' (by decide) range.2
    next =>
      split at found
      next range => exact below 'F' (by decide) range.2
      next => cases found

/-- A digit has a value by its place, by comparing all characters of ASCII. -/
theorem hexDigit?_eq (c : Char)
    : hexDigit? c = if c ∈ hexDigits then some (digitValue c) else none := by
  by_cases ascii : c.toNat < 128
  · have table
        : ∀ n < 128,
            hexDigit? (Char.ofNat n)
            = if Char.ofNat n ∈ hexDigits then some (digitValue (Char.ofNat n)) else none := by
      decide +kernel
    simpa using table c.toNat ascii
  · have plain : c ∉ hexDigits := by
      have all : hexDigits.all (·.toNat < 128) = true := by decide +kernel
      exact fun member => ascii (by simpa using List.all_eq_true.mp all c member)
    rw [if_neg plain]
    cases found : hexDigit? c with
    | none => rfl
    | some value => exact absurd (lt_of_hexDigit? found) ascii

theorem digit?_eq_some_iff {base value : Nat} {c : Char}
    : digit? base c = some value ↔ c ∈ hexDigits ∧ digitValue c = value ∧ value < base := by
  rw [digit?, hexDigit?_eq]
  split <;> simp_all [Option.filter_eq_some_iff]

theorem isDigit_iff {base : Nat} {c : Char}
    : isDigit base c = true ↔ c ∈ hexDigits ∧ digitValue c < base := by
  rw [isDigit, Option.isSome_iff_exists]
  simp [digit?_eq_some_iff]

/-- The digits of a base are the hexadecimal ones of a lesser value. -/
theorem isDigit_iff_mem_filter {base : Nat} {c : Char}
    : isDigit base c = true ↔ c ∈ hexDigits.filter (digitValue · < base) := by
  rw [isDigit_iff, List.mem_filter, decide_eq_true_iff]

theorem isDigit_octal_iff {c : Char} : isDigit 8 c = true ↔ c ∈ octalDigits := by
  have table : hexDigits.filter (digitValue · < 8) = octalDigits := by decide +kernel
  rw [isDigit_iff_mem_filter, table]

theorem isDigit_decimal_iff {c : Char} : isDigit 10 c = true ↔ c ∈ decimalDigits := by
  have table : hexDigits.filter (digitValue · < 10) = decimalDigits := by decide +kernel
  rw [isDigit_iff_mem_filter, table]

theorem isDigit_hex_iff {c : Char} : isDigit 16 c = true ↔ c ∈ hexDigits := by
  have table : hexDigits.filter (digitValue · < 16) = hexDigits := by decide +kernel
  rw [isDigit_iff_mem_filter, table]

/-- The digit that is written for a value has that value. -/
theorem digitChar_hex {value : Nat} (bound : value < 16)
    : Nat.digitChar value ∈ hexDigits ∧ digitValue (Nat.digitChar value) = value := by
  have table : ∀ value < 16,
      Nat.digitChar value ∈ hexDigits ∧ digitValue (Nat.digitChar value) = value := by
    decide +kernel
  exact table value bound

/-- A capital letter is a digit if the small one is, and has the same value. -/
theorem of_toLower_mem_hexDigits {c : Char} (known : c.toLower ∈ hexDigits)
    : c ∈ hexDigits ∧ digitValue c.toLower = digitValue c := by
  by_cases ascii : c.toNat < 128
  · have table : ∀ n < 128,
        (Char.ofNat n).toLower ∈ hexDigits
        → Char.ofNat n ∈ hexDigits
          ∧ digitValue (Char.ofNat n).toLower = digitValue (Char.ofNat n) := by
      decide +kernel
    simpa using table c.toNat ascii (by simpa using known)
  · have same : c.toLower = c := by
      refine dif_neg fun capital => ascii ?_
      have bound : c.toNat ≤ 'Z'.toNat := capital.2
      exact Nat.lt_of_le_of_lt bound (by decide)
    rw [same] at known ⊢
    exact ⟨known, rfl⟩

-----------------------------------------------------------------------------------------
-- Runs of digits
-----------------------------------------------------------------------------------------

theorem runValue_concat (base : Nat) (digits : List Char) (last : Char)
    : runValue base (digits ++ [last]) = base * runValue base digits + digitValue last := by
  simp [runValue, Nat.ofDigits_cons, Nat.add_comm]

theorem runValue_leadingZeros (base zeros : Nat) (digits : List Char)
    : runValue base (List.replicate zeros '0' ++ digits) = runValue base digits := by
  have zero : digitValue '0' = 0 := by decide
  simp [runValue, zero, Nat.ofDigits_append_replicate_zero]

/-- A run is read by position, by induction from its last digit on. -/
theorem numeralValue_eq {base : Nat} {digits : List Char}
    (digital : ∀ c ∈ digits, isDigit base c = true)
    : numeralValue base digits = runValue base digits := by
  induction digits using List.reverseRecOn with
  | nil => rfl
  | append_singleton digits last ih =>
      obtain ⟨known, bound⟩ := isDigit_iff.mp (digital last (by simp))
      have value : digit? base last = some (digitValue last) :=
        digit?_eq_some_iff.mpr ⟨known, rfl, bound⟩
      have front := ih fun c member => digital c (List.mem_append_left _ member)
      rw [numeralValue, List.foldl_append, ← numeralValue, front, runValue_concat]
      simp [value, Nat.mul_comm]

-----------------------------------------------------------------------------------------
-- Numerals
-----------------------------------------------------------------------------------------

/-- The digits of a numeral are those of its base, by induction on the number. -/
theorem mem_toDigits {base n : Nat} {c : Char} (proper : 1 < base)
    (member : c ∈ Nat.toDigits base n)
    : ∃ digit < base, c = Nat.digitChar digit := by
  induction n using Nat.strongRecOn with
  | ind n ih =>
      rcases Nat.lt_or_ge n base with small | large
      · rw [Nat.toDigits_of_lt_base small] at member
        exact ⟨n, small, List.mem_singleton.mp member⟩
      · rw [Nat.toDigits_of_base_le proper large] at member
        rcases List.mem_append.mp member with front | last
        · exact ih (n / base) (Nat.div_lt_self (by omega) proper) front
        · exact ⟨n % base, Nat.mod_lt n (by omega), List.mem_singleton.mp last⟩

theorem isDigit_of_mem_toDigits {base n : Nat} {c : Char} (proper : 1 < base)
    (bound : base ≤ 16) (member : c ∈ Nat.toDigits base n)
    : isDigit base c = true := by
  obtain ⟨digit, small, rfl⟩ := mem_toDigits proper member
  obtain ⟨known, value⟩ := digitChar_hex (Nat.lt_of_lt_of_le small bound)
  exact isDigit_iff.mpr ⟨known, value.symm ▸ small⟩

/-- A numeral denotes its number, by induction on it. -/
theorem runValue_toDigits {base : Nat} (proper : 1 < base) (bound : base ≤ 16) (n : Nat)
    : runValue base (Nat.toDigits base n) = n := by
  induction n using Nat.strongRecOn with
  | ind n ih =>
      rcases Nat.lt_or_ge n base with small | large
      · obtain ⟨-, value⟩ := digitChar_hex (Nat.lt_of_lt_of_le small bound)
        simp [Nat.toDigits_of_lt_base small, runValue, value]
      · have below : n % base < base := Nat.mod_lt n (by omega)
        obtain ⟨-, value⟩ := digitChar_hex (Nat.lt_of_lt_of_le below bound)
        rw [Nat.toDigits_of_base_le proper large, runValue_concat,
          ih (n / base) (Nat.div_lt_self (by omega) proper), value, Nat.div_add_mod]

end RomStrings.Text
