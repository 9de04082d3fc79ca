import Mathlib.Data.List.TakeWhile
import RomStrings.Address
import RomStrings.Proofs.Text.Digits

/-!
The spellings of an address. A number has many: in decimal or behind one of three marks in
hexadecimal, with leading zeros, with letters of either case, and with blanks around it. Each of
them is read as its number, and all other text is refused. The text of an address is one of its
spellings, unless the address is negative.
-/

namespace RomStrings

open Text

-----------------------------------------------------------------------------------------
-- Blanks around a text
-----------------------------------------------------------------------------------------

namespace Text

/-- The text is made of blanks only. -/
def Blanks (text : List Char) : Prop :=
  ∀ c ∈ text, isBlank c = true

instance (text : List Char) : Decidable (Blanks text) :=
  decidable_of_iff (text.all isBlank = true) List.all_eq_true

variable {core : List Char}

theorem plain_of_all (all : core.all (!isBlank ·) = true) : ∀ c ∈ core, isBlank c = false := by
  simpa using all

theorem skipBlanks_append_of_plain (remains : core ≠ []) (plain : ∀ c ∈ core, isBlank c = false)
    (rest : List Char)
    : skipBlanks (core ++ rest) = core ++ rest := by
  cases core with
  | nil => contradiction
  | cons c others => simp [skipBlanks, plain c List.mem_cons_self]

theorem exists_blanks_before (text : List Char)
    : ∃ before, text = before ++ skipBlanks text ∧ Blanks before :=
  ⟨text.takeWhile isBlank, List.takeWhile_append_dropWhile.symm, fun _ => List.mem_takeWhile_imp⟩

/-- What is stripped from a text are blanks at its ends. -/
theorem exists_blanks_around (text : List Char)
    : ∃ before after, text = before ++ strip text ++ after ∧ Blanks before ∧ Blanks after := by
  obtain ⟨before, front, blankFront⟩ := exists_blanks_before text
  obtain ⟨after, back, blankBack⟩ := exists_blanks_before (skipBlanks text).reverse
  have rest : skipBlanks text = strip text ++ after.reverse := by
    rw [strip, ← List.reverse_append, ← back, List.reverse_reverse]
  refine ⟨before, after.reverse, ?_, blankFront, fun c member => ?_⟩
  · rwa [List.append_assoc, ← rest]
  · exact blankBack c (List.mem_reverse.mp member)

/-- A text without blanks is what is left of it between any blanks. -/
theorem strip_between {before after : List Char} (front : Blanks before) (back : Blanks after)
    (remains : core ≠ []) (plain : ∀ c ∈ core, isBlank c = false)
    : strip (before ++ core ++ after) = core := by
  have start : skipBlanks (before ++ core ++ after) = core ++ after := by
    rw [List.append_assoc, skipBlanks, List.dropWhile_append_of_pos front]
    exact skipBlanks_append_of_plain remains plain after
  have backwards : skipBlanks (after.reverse ++ core.reverse) = core.reverse := by
    have blank : Blanks after.reverse := fun c member => back c (List.mem_reverse.mp member)
    have alone := skipBlanks_append_of_plain (List.reverse_ne_nil_iff.mpr remains)
      (fun c member => plain c (List.mem_reverse.mp member)) []
    rw [skipBlanks, List.dropWhile_append_of_pos blank]
    simpa [skipBlanks] using alone
  rw [strip, start, List.reverse_append, backwards, List.reverse_reverse]

theorem strip_of_plain (remains : core ≠ []) (plain : ∀ c ∈ core, isBlank c = false)
    : strip core = core := by
  have none : Blanks [] := List.forall_mem_nil _
  simpa using strip_between none none remains plain

end Text

namespace Address

-----------------------------------------------------------------------------------------
-- Spellings
-----------------------------------------------------------------------------------------

/-- The marks that announce hexadecimal digits. -/
def hexMarks : List (List Char) := [['0', 'x'], ['0', 'X'], ['$']]

/-- One or more digits, all of them listed. -/
structure IsRun (listed digits : List Char) : Prop where
  written : digits ≠ []
  digital : digits ⊆ listed

instance (listed digits : List Char) : Decidable (IsRun listed digits) :=
  decidable_of_iff (digits ≠ [] ∧ digits ⊆ listed)
    ⟨fun run => ⟨run.1, run.2⟩, fun run => ⟨run.written, run.digital⟩⟩

/-- The text is one way to write the number: in decimal with no more than 4300 digits, or behind a
mark in hexadecimal. The number is the value of the digits by their positions.
-/
inductive Spells : Nat → List Char → Prop
  | decimal {digits} (run : IsRun decimalDigits digits) (bounded : digits.length ≤ 4300)
    : Spells (runValue 10 digits) digits
  | hexadecimal {mark digits} (marked : mark ∈ hexMarks) (run : IsRun hexDigits digits)
    : Spells (runValue 16 digits) (mark ++ digits)

/-- Why a text that spells no number is no address. -/
def refusal (stripped : List Char) : ReadError :=
  if IsRun decimalDigits stripped then .tooManyDigits stripped.length
  else .notNumeral (String.ofList stripped)

variable {given : String} {spelled digits : List Char} {base n : Nat}

/-- A spelling is made of marks and digits. -/
theorem Spells.subset (spells : Spells n spelled) : spelled ⊆ hexMarks.flatten ++ hexDigits := by
  have decimal : decimalDigits ⊆ hexDigits := by decide +kernel
  cases spells with
  | decimal run _ =>
      exact List.subset_append_of_subset_right _ (List.Subset.trans run.digital decimal)
  | hexadecimal marked run =>
      refine List.append_subset.mpr ⟨fun c member => ?_, ?_⟩
      · exact List.mem_append_left _ (List.mem_flatten_of_mem marked member)
      · exact List.subset_append_of_subset_right _ run.digital

theorem Spells.ne_nil (spells : Spells n spelled) : spelled ≠ [] := by
  cases spells with
  | decimal run _ => exact run.written
  | hexadecimal _ run => exact List.append_ne_nil_of_right_ne_nil _ run.written

theorem Spells.plain (spells : Spells n spelled) : ∀ c ∈ spelled, isBlank c = false := by
  have table : (hexMarks.flatten ++ hexDigits).all (!isBlank ·) = true := by decide +kernel
  exact fun c member => plain_of_all table c (spells.subset member)

theorem IsRun.leadingZeros {listed : List Char} (run : IsRun listed digits)
    (zero : '0' ∈ listed) (zeros : Nat)
    : IsRun listed (List.replicate zeros '0' ++ digits) where
  written := List.append_ne_nil_of_right_ne_nil _ run.written
  digital := by
    refine List.append_subset.mpr ⟨fun c member => ?_, run.digital⟩
    exact List.eq_of_mem_replicate member ▸ zero

/-- The decimal numeral of a number spells it, with any leading zeros. -/
theorem spells_decimal {zeros : Nat} (bounded : zeros + (Nat.toDigits 10 n).length ≤ 4300)
    : Spells n (List.replicate zeros '0' ++ Nat.toDigits 10 n) := by
  have run : IsRun decimalDigits (Nat.toDigits 10 n) := by
    refine ⟨Nat.toDigits_ne_nil, fun c member => ?_⟩
    exact isDigit_decimal_iff.mp (isDigit_of_mem_toDigits (by decide) (by decide) member)
  have spells := Spells.decimal (run.leadingZeros (by decide) zeros) (by simpa using bounded)
  rwa [runValue_leadingZeros, runValue_toDigits (by decide) (by decide)] at spells

/-- The hexadecimal numeral of a number spells it behind any mark, with any leading zeros and with
letters of either case.
-/
theorem spells_hexadecimal {mark : List Char} (marked : mark ∈ hexMarks) (zeros : Nat)
    (numeral : digits.map Char.toLower = Nat.toDigits 16 n)
    : Spells n (mark ++ (List.replicate zeros '0' ++ digits)) := by
  have digit (c : Char) (member : c ∈ digits)
      : c ∈ hexDigits ∧ digitValue c.toLower = digitValue c := by
    have lower : c.toLower ∈ Nat.toDigits 16 n := numeral ▸ List.mem_map_of_mem member
    have digital := isDigit_of_mem_toDigits (by decide) (by decide) lower
    exact of_toLower_mem_hexDigits (isDigit_hex_iff.mp digital)
  have value : runValue 16 digits = n := by
    have lower : runValue 16 (digits.map Char.toLower) = n :=
      numeral ▸ runValue_toDigits (by decide) (by decide) n
    have same : digits.map (digitValue ∘ Char.toLower) = digits.map digitValue :=
      List.map_congr_left fun c member => (digit c member).2
    rwa [runValue, List.map_map, same] at lower
  have run : IsRun hexDigits digits := by
    refine ⟨?_, fun c member => (digit c member).1⟩
    rintro rfl
    exact Nat.toDigits_ne_nil numeral.symm
  have spells := Spells.hexadecimal marked (run.leadingZeros (by decide) zeros)
  rwa [runValue_leadingZeros, value] at spells

-----------------------------------------------------------------------------------------
-- Reading
-----------------------------------------------------------------------------------------

theorem spelling_marked {mark : List Char} (marked : mark ∈ hexMarks) (digits : List Char)
    : spelling (mark ++ digits) = (16, digits) := by
  simp only [hexMarks, List.mem_cons, List.not_mem_nil, or_false] at marked
  rcases marked with rfl | rfl | rfl <;> rfl

/-- A text without a mark is taken as decimal whole, by cases on how it starts. -/
theorem spelling_bare (bare : ∀ mark ∈ hexMarks, ¬mark <+: spelled)
    : spelling spelled = (10, spelled) := by
  fun_cases spelling spelled with
  | case1 digits => exact absurd ⟨digits, rfl⟩ (bare ['$'] (by decide))
  | case2 digits => exact absurd ⟨digits, rfl⟩ (bare ['0', 'x'] (by decide))
  | case3 digits => exact absurd ⟨digits, rfl⟩ (bare ['0', 'X'] (by decide))
  | case4 => rfl

/-- No decimal number starts with a mark, as every mark has a character that is no decimal digit. -/
theorem IsRun.bare (run : IsRun decimalDigits digits) : ∀ mark ∈ hexMarks, ¬mark <+: digits := by
  have table : ∀ mark ∈ hexMarks, ¬mark ⊆ decimalDigits := by decide +kernel
  exact fun mark marked starts =>
    table mark marked (List.Subset.trans starts.subset run.digital)

/-- So decimal digits spell a number only in decimal, and too many of them spell none. -/
theorem Spells.length_le (spells : Spells n digits) (run : IsRun decimalDigits digits)
    : digits.length ≤ 4300 := by
  cases spells with
  | decimal _ bounded => exact bounded
  | hexadecimal marked _ => exact absurd (List.prefix_append _ _) (run.bare _ marked)

/-- Digits are refused unless they are a run of those of the base. -/
theorem isRun_iff {listed : List Char} (table : ∀ {c}, isDigit base c = true ↔ c ∈ listed)
    : IsRun listed digits ↔ (digits.isEmpty || !digits.all (isDigit base)) = false := by
  have split : IsRun listed digits ↔ digits ≠ [] ∧ ∀ c ∈ digits, isDigit base c = true :=
    ⟨fun run => ⟨run.written, fun _ member => table.mpr (run.digital member)⟩,
      fun given => ⟨given.1, fun _ member => table.mp (given.2 _ member)⟩⟩
  simp [split]

theorem read_hexadecimal {mark : List Char} (marked : mark ∈ hexMarks)
    (shape : strip given.toList = mark ++ digits) (run : IsRun hexDigits digits)
    : read given = .ok (runValue 16 digits) := by
  have value := numeralValue_eq fun c member => isDigit_hex_iff.mpr (run.digital member)
  simp [read, shape, spelling_marked marked, (isRun_iff isDigit_hex_iff).mp run, value]

/-- A run of decimal digits is read if it is not too long. -/
theorem read_decimal (shape : strip given.toList = digits) (run : IsRun decimalDigits digits)
    : read given
      = if 4300 < digits.length then .error (.tooManyDigits digits.length)
        else .ok (runValue 10 digits) := by
  have value := numeralValue_eq fun c member => isDigit_decimal_iff.mpr (run.digital member)
  simp [read, shape, spelling_bare run.bare, (isRun_iff isDigit_decimal_iff).mp run, value,
    maxDecimalDigits]

/-- What is neither a run of decimal digits nor a mark with hexadecimal ones is refused. -/
theorem read_other (shape : strip given.toList = spelled)
    (notDecimal : ¬IsRun decimalDigits spelled)
    (notHexadecimal
      : ∀ mark ∈ hexMarks, ∀ digits, spelled = mark ++ digits → ¬IsRun hexDigits digits)
    : read given = .error (.notNumeral (String.ofList spelled)) := by
  by_cases bare : ∀ mark ∈ hexMarks, ¬mark <+: spelled
  · rw [isRun_iff isDigit_decimal_iff, Bool.not_eq_false] at notDecimal
    simp only [read, shape, spelling_bare bare, notDecimal, if_true]
  · push Not at bare
    obtain ⟨mark, marked, digits, rfl⟩ := bare
    have refused := notHexadecimal mark marked digits rfl
    rw [isRun_iff isDigit_hex_iff, Bool.not_eq_false] at refused
    simp only [read, shape, spelling_marked marked, refused, if_true]

theorem read_of_spells (spells : Spells n (strip given.toList)) : read given = .ok n := by
  generalize shape : strip given.toList = spelled at spells
  cases spells with
  | decimal run bounded => rw [read_decimal shape run, if_neg (by omega)]
  | hexadecimal marked run => exact read_hexadecimal marked shape run

/-- A text that spells no number is refused, for its length if it is made of decimal digits. -/
theorem read_of_not_spells (none : ∀ n, ¬Spells n (strip given.toList))
    : read given = .error (refusal (strip given.toList)) := by
  generalize shape : strip given.toList = spelled at none
  by_cases run : IsRun decimalDigits spelled
  · have long : 4300 < spelled.length := by
      by_contra bounded
      exact none _ (.decimal run (Nat.le_of_not_lt bounded))
    rw [read_decimal shape run, if_pos long, refusal, if_pos run]
  · rw [refusal, if_neg run]
    refine read_other shape run ?_
    rintro mark marked digits rfl digital
    exact none _ (.hexadecimal marked digital)

theorem read_eq_ok_iff : read given = .ok n ↔ Spells n (strip given.toList) := by
  refine ⟨fun success => ?_, read_of_spells⟩
  by_contra other
  have none : ∀ m, ¬Spells m (strip given.toList) := by
    intro m spells
    rw [read_of_spells spells] at success
    cases success
    exact other spells
  rw [read_of_not_spells none] at success
  cases success

/-- What is stripped spells a number exactly if that spelling stands between blanks. -/
theorem spells_strip_iff {text : List Char}
    : Spells n (strip text)
      ↔ ∃ before spelled after,
          text = before ++ spelled ++ after ∧ Blanks before ∧ Blanks after ∧ Spells n spelled := by
  constructor
  · intro spells
    obtain ⟨before, after, shape, front, back⟩ := exists_blanks_around text
    exact ⟨before, strip text, after, shape, front, back, spells⟩
  · rintro ⟨before, spelled, after, rfl, front, back, spells⟩
    rwa [strip_between front back spells.ne_nil spells.plain]

/-- A spelling is read between any blanks. -/
theorem read_between {before after : List Char} (front : Blanks before) (back : Blanks after)
    (spells : Spells n spelled)
    : read (String.ofList (before ++ spelled ++ after)) = .ok n := by
  apply read_of_spells
  rw [String.toList_ofList]
  exact spells_strip_iff.mpr ⟨before, spelled, after, rfl, front, back, spells⟩

-----------------------------------------------------------------------------------------
-- Texts of addresses
-----------------------------------------------------------------------------------------

theorem toLower_toDigits (n : Nat) : (Nat.toDigits 16 n).map Char.toLower = Nat.toDigits 16 n := by
  have table : ∀ value < 16, (Nat.digitChar value).toLower = Nat.digitChar value := by
    decide +kernel
  have lower (c : Char) (member : c ∈ Nat.toDigits 16 n) : c.toLower = id c := by
    obtain ⟨value, small, rfl⟩ := mem_toDigits (by decide) member
    exact table value small
  rw [List.map_congr_left lower, List.map_id]

theorem spells_text (n : Nat) : Spells n (text n).toList := by
  have marked : ['0', 'x'] ∈ hexMarks := by decide
  have shape : (text n).toList = ['0', 'x'] ++ (List.replicate 0 '0' ++ Nat.toDigits 16 n) := by
    change ("0x" ++ String.ofList (hexNumeral n)).toList = _
    simp [hexNumeral]
  exact shape ▸ spells_hexadecimal marked 0 (toLower_toDigits n)

theorem text_of_negative {address : Address} (negative : address < 0)
    : ∃ digits, (text address).toList = ['0', 'x', '-'] ++ digits ∧ digits ⊆ hexDigits := by
  obtain ⟨m, rfl⟩ := Int.eq_negSucc_of_lt_zero negative
  refine ⟨Nat.toDigits 16 (m + 1), by simp [text, hexNumeral], fun c member => ?_⟩
  exact isDigit_hex_iff.mp (isDigit_of_mem_toDigits (by decide) (by decide) member)

/-- The text of a negative address is refused for its minus sign, which is in no spelling. -/
theorem read_text_of_negative {address : Address} (negative : address < 0)
    : read (text address) = .error (.notNumeral (text address)) := by
  obtain ⟨digits, shape, digital⟩ := text_of_negative negative
  have minus : '-' ∈ (text address).toList := by simp [shape]
  have stripped : strip (text address).toList = (text address).toList := by
    have table : (['0', 'x', '-'] ++ hexDigits).all (!isBlank ·) = true := by decide +kernel
    refine strip_of_plain (List.ne_nil_of_mem minus) fun c member => plain_of_all table c ?_
    rw [shape] at member
    exact (List.mem_append.mp member).elim (List.mem_append_left _)
      fun digit => List.mem_append_right _ (digital digit)
  have none (n : Nat) : ¬Spells n (strip (text address).toList) := by
    have absent : '-' ∉ hexMarks.flatten ++ hexDigits := by decide +kernel
    rw [stripped]
    exact fun spells => absent (spells.subset minus)
  have notDecimal : ¬IsRun decimalDigits (text address).toList := by
    have absent : '-' ∉ decimalDigits := by decide
    exact fun run => absent (run.digital minus)
  rw [read_of_not_spells none, stripped, refusal, if_neg notDecimal, String.ofList_toList]

/-- What is read of the texts that may be given for an address. -/
structure ReadsSpellings : Prop where
  /-- The text of an address is read back. -/
  written : ∀ n : Nat, read (text n) = .ok n
  /-- So is a number in decimal, with any leading zeros and any blanks around it, unless there are
  too many digits.
  -/
  decimal
    : ∀ n zeros before after,
        Blanks before
        → Blanks after
        → zeros + (Nat.toDigits 10 n).length ≤ 4300
        → read (String.ofList (before ++ (List.replicate zeros '0' ++ Nat.toDigits 10 n) ++ after))
          = .ok n
  /-- So is a number in hexadecimal behind any of the marks, with letters of either case. -/
  hexadecimal
    : ∀ n mark zeros digits before after,
        Blanks before
        → Blanks after
        → mark ∈ hexMarks
        → digits.map Char.toLower = Nat.toDigits 16 n
        → read
            (String.ofList (before ++ (mark ++ (List.replicate zeros '0' ++ digits)) ++ after))
          = .ok n
  /-- A text is read as a number exactly if it spells that number, the blanks at its ends apart. -/
  accepted : ∀ given n, read given = .ok n ↔ Spells n (strip given.toList)
  /-- Nothing but blanks is set apart. -/
  between
    : ∀ n text,
        Spells n (strip text)
        ↔ ∃ before spelled after,
            text = before ++ spelled ++ after
            ∧ Blanks before
            ∧ Blanks after
            ∧ Spells n spelled
  /-- Any other text is refused. -/
  refused
    : ∀ given,
        (∀ n, ¬Spells n (strip given.toList))
        → read given = .error (refusal (strip given.toList))
  /-- So is the text of a negative address. -/
  negative : ∀ address < 0, read (text address) = .error (.notNumeral (text address))

/-- Addresses are read back from all of their spellings, and nothing else is read. -/
theorem reads_spellings : ReadsSpellings where
  written n := by
    have none : Blanks [] := List.forall_mem_nil _
    simpa using read_between none none (spells_text n)
  decimal _ _ _ _ front back bounded := read_between front back (spells_decimal bounded)
  hexadecimal _ _ zeros _ _ _ front back marked numeral :=
    read_between front back (spells_hexadecimal marked zeros numeral)
  accepted _ _ := read_eq_ok_iff
  between _ _ := spells_strip_iff
  refused _ := read_of_not_spells
  negative _ := read_text_of_negative

/-- A mark and letters of both cases between a wide space and a line feed, the longest decimal
spelling of a number, one more zero in front of it, and a minus sign.
-/
theorem reads_spellings_at_limits
    : read "\u2003$00fF\n" = .ok 255
      ∧ read (String.ofList (List.replicate 4298 '0' ++ ['1', '6'])) = .ok 16
      ∧ read (String.ofList (List.replicate 4299 '0' ++ ['1', '6']))
        = .error (.tooManyDigits 4301)
      ∧ read (text (-16)) = .error (.notNumeral "0x-10") := by
  have reads := reads_spellings
  have numeral : Nat.toDigits 10 16 = ['1', '6'] := by decide
  refine ⟨?_, ?_, ?_, ?_⟩
  · exact reads.hexadecimal 255 ['$'] 2 ['f', 'F'] ['\u2003'] ['\n'] (by decide +kernel)
      (by decide +kernel) (by decide) (by decide +kernel)
  · have read := reads.decimal 16 4298 [] [] (by decide) (by decide) (by decide)
    rwa [List.nil_append, List.append_nil, numeral] at read
  · have run : IsRun decimalDigits (List.replicate 4299 '0' ++ ['1', '6']) := by
      have run : IsRun decimalDigits ['1', '6'] := by decide
      exact run.leadingZeros (by decide) 4299
    have length : (List.replicate 4299 '0' ++ ['1', '6']).length = 4301 := by
      rw [List.length_append, List.length_replicate]
      rfl
    generalize List.replicate 4299 '0' ++ ['1', '6'] = digits at run length
    have stripped : strip (String.ofList digits).toList = digits := by
      have table : decimalDigits.all (!isBlank ·) = true := by decide +kernel
      have plain := fun c member => plain_of_all table c (run.digital member)
      rw [String.toList_ofList, strip_of_plain run.written plain]
    have read := reads.refused (String.ofList digits) fun n spells => by
      rw [stripped] at spells
      have bounded := spells.length_le run
      omega
    rwa [stripped, refusal, if_pos run, length] at read
  · exact reads.negative (-16) (by decide)

end Address

end RomStrings
