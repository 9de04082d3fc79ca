import Mathlib.Data.List.Forall2
import RomStrings.Proofs.Escape.Grammar

/-!
Writing bytes as payloads. A byte is spelled as its own character, as an escape of one character,
or with three octal digits, and none of these spellings reaches into the one behind it.
-/

namespace RomStrings

open Text

namespace Escape

/-- The text is one way to write the byte. -/
inductive Spells : UInt8 → List Char → Prop
  | itself {byte} (plain : latin1Char byte ≠ '\\') : Spells byte [latin1Char byte]
  | simple {byte letter} (known : (letter, byte) ∈ simpleEscapes) : Spells byte ['\\', letter]
  | octal {byte digits} (three : digits.length = 3)
    (digital : ∀ c ∈ digits, c ∈ octalDigits)
    (value : UInt8.ofNat (runValue 8 digits) = byte)
    : Spells byte ('\\' :: digits)

/-- The byte with three octal digits, which every byte can be written with. -/
def octalSpelling (byte : UInt8) : List Char :=
  ['\\', Nat.digitChar (byte.toNat / 64), Nat.digitChar (byte.toNat / 8 % 8),
    Nat.digitChar (byte.toNat % 8)]

/-- The three digits denote the byte, as its highest, middle and lowest bits. -/
theorem spells_octalSpelling (byte : UInt8) : Spells byte (octalSpelling byte) := by
  have digit : ∀ value < 8,
      Nat.digitChar value ∈ octalDigits ∧ digitValue (Nat.digitChar value) = value := by
    decide +kernel
  have bound := byte.toNat_lt
  obtain ⟨highKnown, high⟩ := digit (byte.toNat / 64) (by omega)
  obtain ⟨middleKnown, middle⟩ := digit (byte.toNat / 8 % 8) (by omega)
  obtain ⟨lowKnown, low⟩ := digit (byte.toNat % 8) (by omega)
  refine .octal rfl ?_ ?_
  · simp [highKnown, middleKnown, lowKnown]
  · have whole
        : byte.toNat % 8 + 8 * (byte.toNat / 8 % 8 + 8 * (byte.toNat / 64)) = byte.toNat := by
      omega
    simp only [runValue, List.map_cons, List.map_nil, high, middle, low, List.reverse_cons,
      List.reverse_nil, List.nil_append, List.cons_append, Nat.ofDigits_cons, Nat.ofDigits_nil,
      Nat.mul_zero, Nat.add_zero]
    rw [whole, UInt8.ofNat_toNat]

/-- A spelling is one token that stands for the byte and goes on with no character, by cases on the
way of writing.
-/
theorem Spells.exists_token {byte : UInt8} {spelling : List Char} (spells : Spells byte spelling)
    : ∃ token : Token,
        token.spelling = spelling
        ∧ token.Formed
        ∧ (∀ c, token.takes c = false)
        ∧ token.bytes = [byte] := by
  cases spells with
  | itself plain =>
      refine ⟨.char (latin1Char byte), rfl, .char plain, fun _ => rfl, ?_⟩
      have bound : (latin1Char byte).toNat < 0x100 := by
        simpa [isLatin1] using isLatin1_latin1Char byte
      rw [Token.bytes, charBytes, if_pos bound, ofNat_latin1Char]
  | @simple letter known => exact ⟨.simple letter byte, rfl, .simple known, fun _ => rfl, rfl⟩
  | @octal digits three digital value =>
      refine ⟨.octal digits, rfl, .octal ?_ (by omega) digital, fun _ => ?_, ?_⟩
      · rintro rfl
        contradiction
      · simp [Token.takes, three]
      · have read := numeralValue_eq fun c member => isDigit_octal_iff.mpr (digital c member)
        rw [Token.bytes, read, value]

/-- Spellings split into one token each, by induction on the bytes. -/
theorem exists_splits_of_spelled {bytes : Bytes} {spellings : List (List Char)}
    (spelled : List.Forall₂ Spells bytes spellings)
    : ∃ ts, Splits spellings.flatten ts [] ∧ ts.flatMap Token.bytes = bytes := by
  induction spelled with
  | nil => exact ⟨[], .nil, rfl⟩
  | cons spells _ ih =>
      obtain ⟨token, rfl, formed, closed, byte⟩ := spells.exists_token
      obtain ⟨ts, split, rfl⟩ := ih
      refine ⟨token :: ts, .cons formed (fun c _ => closed c) split, ?_⟩
      rw [List.flatMap_cons, byte, List.singleton_append]

/-- Every byte string can be written, and it is read back however each of its bytes is written. -/
theorem decode_spelled (bytes : Bytes)
    : List.Forall₂ Spells bytes (bytes.map octalSpelling)
      ∧ ∀ spellings,
          List.Forall₂ Spells bytes spellings → decode spellings.flatten = .ok bytes := by
  constructor
  · rw [List.forall₂_map_right_iff, List.forall₂_same]
    exact fun byte _ => spells_octalSpelling byte
  · intro spellings spelled
    exact decode_eq_ok_iff.mpr (exists_splits_of_spelled spelled)

/-- A digit behind an octal escape, the letter of an escape behind that escape, and a backslash
behind a backslash.
-/
theorem decode_spelled_among_lookalikes
    : let bytes : Bytes := [0x01, 0x35, 0x0A, 0x6E, 0x5C, 0x5C]
      let spellings :=
        [['\\', '0', '0', '1'], ['5'], ['\\', 'n'], ['n'], ['\\', '\\'], ['\\', '1', '3', '4']]
      List.Forall₂ Spells bytes spellings ∧ decode spellings.flatten = .ok bytes := by
  intro bytes spellings
  have spelled : List.Forall₂ Spells bytes spellings := by
    have digital {digits : List Char} (all : digits.all octalDigits.contains = true)
        : ∀ c ∈ digits, c ∈ octalDigits := fun c member =>
      List.contains_iff_mem.mp (List.all_eq_true.mp all c member)
    refine .cons (.octal rfl (digital ?_) ?_) (.cons (.itself ?_) (.cons (.simple ?_)
      (.cons (.itself ?_) (.cons (.simple ?_) (.cons (.octal rfl (digital ?_) ?_) .nil)))))
      <;> decide +kernel
  exact ⟨spelled, (decode_spelled bytes).2 spellings spelled⟩

end Escape

end RomStrings
