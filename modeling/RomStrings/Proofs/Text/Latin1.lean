import Mathlib.Data.List.TakeWhile
import RomStrings.Proofs.Text.Framing
import RomStrings.Text.Latin1

/-!
Text that has a form in bytes, character by character. What is read from bytes is such a text, and
so are the lines that it is taken apart into.
-/

namespace RomStrings.Text

/-- Every character of the text has a byte. -/
def Narrow (text : List Char) : Prop :=
  ∀ c ∈ text, isLatin1 c = true

theorem wideRun?_eq_none_iff {text : List Char} : wideRun? text = none ↔ Narrow text := by
  rw [Narrow, ← List.dropWhile_eq_nil_iff, wideRun?]
  cases left : text.dropWhile isLatin1 with
  | nil => simp
  | cons c rest =>
      have wide : isLatin1 c = false := by
        have head := List.head?_dropWhile_not isLatin1 text
        rw [left] at head
        simpa using head
      simp [wide]

/-- A text cannot be turned into bytes exactly if some character has none. -/
theorem exists_latin1Bytes_error_iff {text : List Char}
    : (∃ wide, latin1Bytes text = .error wide) ↔ ¬Narrow text := by
  rw [← wideRun?_eq_none_iff, latin1Bytes]
  cases wideRun? text <;> simp

theorem isLatin1_latin1Char (byte : UInt8) : isLatin1 (latin1Char byte) = true := by
  have codes : ∀ code < 256, isLatin1 (Char.ofNat code) = true := by decide +kernel
  exact codes byte.toNat byte.toNat_lt

theorem narrow_latin1Text (data : Bytes) : Narrow (latin1Text data) := by
  intro c member
  obtain ⟨byte, -, rfl⟩ := List.mem_map.mp member
  exact isLatin1_latin1Char byte

/-- Line breaks are unified within the characters that have a byte, by induction on the text. -/
theorem narrow_unifyBreaks {text : List Char} (narrow : Narrow text)
    : Narrow (unifyBreaks text) := by
  have kept (breaks : Breaks) (before : Narrow breaks.reversed)
      : Narrow (text.foldl Breaks.read breaks).reversed := by
    induction text generalizing breaks with
    | nil => exact before
    | cons c rest ih =>
        obtain ⟨head, tail⟩ := List.forall_mem_cons.mp narrow
        have feed : isLatin1 '\n' = true := by decide
        refine ih tail (breaks.read c) ?_
        simp only [Breaks.read]
        split
        · exact List.forall_mem_cons.mpr ⟨feed, before⟩
        · split
          · exact before
          · exact List.forall_mem_cons.mpr ⟨head, before⟩
  have start : Narrow [] := by simp [Narrow]
  intro c member
  exact kept _ start c (List.mem_reverse.mp member)

theorem narrow_frame {text : List Char} (narrow : Narrow text)
    : ∀ line ∈ (frame text).lines, Narrow line := by
  have parts : ∀ line ∈ split '\n' (unifyBreaks text), Narrow line := by
    intro line member c inside
    exact narrow_unifyBreaks narrow c ((mem_split member).2 c inside)
  simp only [frame]
  split
  next => exact fun line member => parts line (List.dropLast_subset _ member)
  next => exact parts

/-- The parts of a joined text are in it, by induction on them. -/
theorem mem_join_of_mem {separator c : Char} {parts : List (List Char)} {part : List Char}
    (known : part ∈ parts) (inside : c ∈ part)
    : c ∈ join separator parts := by
  induction parts with
  | nil => cases known
  | cons first rest ih =>
      cases rest with
      | nil =>
          obtain rfl := List.mem_singleton.mp known
          simpa [join] using inside
      | cons next others =>
          rw [join_cons_cons]
          rcases List.mem_cons.mp known with rfl | later
          · exact List.mem_append_left _ inside
          · exact List.mem_append_right _ (List.mem_cons_of_mem _ (ih later))

/-- A text put together has bytes exactly if all of its lines have. -/
theorem narrow_text_iff {framed : Framed}
    : Narrow framed.text ↔ ∀ line ∈ framed.lines, Narrow line := by
  have feed : isLatin1 '\n' = true := by decide
  constructor
  · intro narrow line known c inside
    refine narrow c ?_
    have some : framed.lines.isEmpty = false := by
      cases lines : framed.lines with
      | nil => simp [lines] at known
      | cons _ _ => rfl
    rw [Framed.text, some]
    exact List.mem_append_left _ (mem_join_of_mem known inside)
  · intro narrow c member
    simp only [Framed.text] at member
    split at member
    next => cases member
    next =>
      rcases List.mem_append.mp member with member | member
      · rcases mem_join member with rfl | ⟨line, known, inside⟩
        · exact feed
        · exact narrow line known c inside
      · split at member
        next => rw [List.mem_singleton.mp member]; exact feed
        next => cases member

-----------------------------------------------------------------------------------------
-- Bytes and text
-----------------------------------------------------------------------------------------

theorem latin1Bytes_of_narrow {text : List Char} (narrow : Narrow text)
    : latin1Bytes text = .ok (text.map fun c => UInt8.ofNat c.toNat) := by
  rw [latin1Bytes, wideRun?_eq_none_iff.mpr narrow]

theorem ofNat_latin1Char (byte : UInt8) : UInt8.ofNat (latin1Char byte).toNat = byte := by
  have codes : ∀ code < 256, (Char.ofNat code).toNat = code := by decide +kernel
  rw [latin1Char, codes byte.toNat byte.toNat_lt, UInt8.ofNat_toNat]

theorem latin1Char_inj {byte other : UInt8} (same : latin1Char byte = latin1Char other)
    : byte = other := by
  rw [← ofNat_latin1Char byte, same, ofNat_latin1Char]

/-- Every byte string is the form of the text that it holds. -/
theorem latin1Bytes_latin1Text (data : Bytes) : latin1Bytes (latin1Text data) = .ok data := by
  rw [latin1Bytes_of_narrow (narrow_latin1Text data)]
  simp [latin1Text, Function.comp_def, ofNat_latin1Char]

/-- The form of a text holds that text. -/
theorem latin1Text_of_latin1Bytes {text : List Char} {data : Bytes}
    (formed : latin1Bytes text = .ok data)
    : latin1Text data = text := by
  have narrow : Narrow text := by
    by_contra wide
    obtain ⟨run, fails⟩ := exists_latin1Bytes_error_iff.mpr wide
    rw [fails] at formed
    cases formed
  have same (c : Char) (member : c ∈ text) : latin1Char (UInt8.ofNat c.toNat) = c := by
    have bound : c.toNat < 256 := by simpa [isLatin1] using narrow c member
    rw [latin1Char, UInt8.toNat_ofNat_of_lt' bound, Char.ofNat_toNat]
  rw [latin1Bytes_of_narrow narrow] at formed
  cases formed
  rw [latin1Text, List.map_map]
  exact (List.map_congr_left same).trans (List.map_id text)

theorem latin1Text_cons (byte : UInt8) (data : Bytes)
    : latin1Text (byte :: data) = latin1Char byte :: latin1Text data :=
  rfl

/-- The bytes with a line feed for every carriage return, and for every pair of them. -/
def unifyBytes : Bytes → Bytes
  | [] => []
  | 13 :: 10 :: rest => 10 :: unifyBytes rest
  | 13 :: rest => 10 :: unifyBytes rest
  | byte :: rest => byte :: unifyBytes rest

/-- Line breaks may be unified in the bytes of a text, by induction as they are read. -/
theorem latin1Text_unifyBytes (data : Bytes)
    : latin1Text (unifyBytes data) = unifyBreaks (latin1Text data) := by
  have feed : latin1Char 10 = '\n' := by decide
  have carriage : latin1Char 13 = '\r' := by decide
  induction data using unifyBytes.induct with
  | case1 => rfl
  | case2 rest ih =>
      rw [unifyBytes, latin1Text_cons, latin1Text_cons, latin1Text_cons, feed, carriage,
        unifyBreaks_pair, ih]
  | case3 rest alone ih =>
      have lone : (latin1Text rest).head? ≠ some '\n' := by
        cases rest with
        | nil => simp [latin1Text]
        | cons next others =>
            rw [latin1Text_cons, ← feed]
            intro same
            have first := latin1Char_inj (Option.some.inj same)
            exact alone others (by rw [first])
      rw [unifyBytes, latin1Text_cons, latin1Text_cons, feed, carriage, unifyBreaks_return lone,
        ih]
      exact alone
  | case4 byte rest notPair notReturn ih =>
      have plain : latin1Char byte ≠ '\r' := by
        rw [← carriage]
        exact fun same => notReturn (latin1Char_inj same)
      rw [unifyBytes, latin1Text_cons, latin1Text_cons, unifyBreaks_cons plain, ih]
      · exact notPair
      · exact notReturn

end RomStrings.Text
