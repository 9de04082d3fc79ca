import RomStrings.Assembly.Line

/-!
Which forms a line may have at once. Every form but a label is read off the directive on the line,
so lines with different directives share no form. A line whose directive has operands is no label,
since a blank parts the operands from the name.
-/

namespace RomStrings.Assembly

open Text

-----------------------------------------------------------------------------------------
-- Characters
-----------------------------------------------------------------------------------------

/-- No blank is a word character. There are few blanks, so each of them is looked up. -/
theorem isWord_of_isBlank {c : Char} (blank : isBlank c = true)
    : isWord c = false := by
  have table
      : ∀ range ∈ blankRanges, ∀ behind ≤ range.2 - range.1,
          isWord (Char.ofNat (range.1 + behind)) = false := by
    decide +kernel
  obtain ⟨range, member, within⟩ := List.any_eq_true.mp blank
  rw [Bool.and_eq_true, decide_eq_true_eq, decide_eq_true_eq] at within
  have known := table range member (c.toNat - range.1) (by omega)
  rwa [Nat.add_sub_cancel' within.1, Char.ofNat_toNat] at known

/-- No blank continues a symbol, since it is neither a word character nor a dot or dollar sign. -/
theorem isSymbolChar_of_isBlank {c : Char} (blank : isBlank c = true)
    : isSymbolChar c = false := by
  have dot : c ≠ '.' := fun same => absurd (same ▸ blank) (by decide)
  have dollar : c ≠ '$' := fun same => absurd (same ▸ blank) (by decide)
  simp [isSymbolChar, isWord_of_isBlank blank, dot, dollar]

theorem isSymbolChar_of_isWord {c : Char} (word : isWord c = true)
    : isSymbolChar c = true := by
  simp [isSymbolChar, word]

/-- A character that starts a symbol also continues one. It is an ASCII character, and each of those
is looked up.
-/
theorem isSymbolChar_of_isSymbolStart {c : Char} (start : isSymbolStart c = true)
    : isSymbolChar c = true := by
  have table
      : ∀ code < 0x80,
          isSymbolStart (Char.ofNat code) = true → isSymbolChar (Char.ofNat code) = true := by
    decide +kernel
  have below {last : Char} (bound : c ≤ last) (ascii : last.toNat < 0x80) : c.toNat < 0x80 :=
    Nat.lt_of_le_of_lt bound ascii
  have ascii : c.toNat < 0x80 := by
    simp only [isSymbolStart, Bool.or_eq_true, Bool.and_eq_true, decide_eq_true_eq] at start
    rcases start with (((⟨-, upper⟩ | ⟨-, lower⟩) | rfl) | rfl) | rfl
    · exact below upper (by decide)
    · exact below lower (by decide)
    all_goals decide
  have known := table c.toNat ascii
  rw [Char.ofNat_toNat] at known
  exact known start

theorem not_isBlank_of_isSymbolStart {c : Char} (start : isSymbolStart c = true)
    : isBlank c = false := by
  cases blank : isBlank c with
  | false => rfl
  | true =>
      have continues := isSymbolChar_of_isSymbolStart start
      rw [isSymbolChar_of_isBlank blank] at continues
      contradiction

/-- Skipping blanks twice is skipping them once, since what is left starts with none. -/
theorem skipBlanks_skipBlanks (text : List Char)
    : skipBlanks (skipBlanks text) = skipBlanks text := by
  cases left : skipBlanks text with
  | nil => rfl
  | cons c rest =>
      have plain : isBlank c = false := by
        have := List.head?_dropWhile_not isBlank text
        rw [← skipBlanks, left] at this
        simpa using this
      simp [skipBlanks, plain]

-----------------------------------------------------------------------------------------
-- Directives
-----------------------------------------------------------------------------------------

/-- What follows a directive's name stands at the end of its line. -/
theorem suffix_of_directive? {line : List Char} {d : Directive} (found : directive? line = some d)
    : d.rest <:+ line := by
  simp only [directive?] at found
  split at found
  next text shape =>
    cases found
    have blanks : skipBlanks line <:+ line := List.dropWhile_suffix isBlank
    have behind : text <:+ skipBlanks line := shape ▸ List.suffix_cons '.' text
    exact (List.dropWhile_suffix isWord).trans (behind.trans blanks)
  next => cases found

/-- A line with operands holds a directive of that name, parted from them by a blank. -/
theorem directive_of_operandsOf? {name : String} {line operands : List Char}
    (found : operandsOf? name line = some operands)
    : ∃ d, directive? line = some d
        ∧ d.name = name.toList
        ∧ d.rest.head?.any isBlank = true
        ∧ operands = skipBlanks d.rest := by
  simp only [operandsOf?, Option.bind_eq_bind, Option.bind_eq_some_iff,
    Directive.operands?] at found
  obtain ⟨d, known, found⟩ := found
  split at found
  next named =>
    split at found
    next blank => exact ⟨d, known, named, blank, (Option.some.inj found).symm⟩
    next => cases found
  next => cases found

theorem isDirective_iff {names : List String} {line : List Char}
    : isDirective names line = true
      ↔ ∃ d, directive? line = some d ∧ ∃ name ∈ names, name.toList = d.name := by
  cases known : directive? line with
  | none => simp [isDirective, known]
  | some d => simp [isDirective, known]

/-- A directive is one of more names if it is one of some of them. -/
theorem isDirective_mono {names more : List String} {line : List Char}
    (subset : ∀ name ∈ names, name ∈ more) (holds : isDirective names line = true)
    : isDirective more line = true := by
  obtain ⟨d, known, name, member, same⟩ := isDirective_iff.mp holds
  exact isDirective_iff.mpr ⟨d, known, name, subset name member, same⟩

/-- A directive is none of other names, since it has one name only. -/
theorem isDirective_of_apart {names others : List String} {line : List Char}
    (apart : ∀ name ∈ names, name ∉ others) (holds : isDirective names line = true)
    : isDirective others line = false := by
  obtain ⟨d, known, name, member, same⟩ := isDirective_iff.mp holds
  cases other : isDirective others line with
  | false => rfl
  | true =>
      obtain ⟨e, again, second, otherMember, otherSame⟩ := isDirective_iff.mp other
      rw [known] at again
      cases again
      have equal : name = second := String.toList_inj.mp (same.trans otherSame.symm)
      exact absurd (equal ▸ otherMember) (apart name member)

theorem isDirective_of_operandsOf? {name : String} {line operands : List Char}
    (found : operandsOf? name line = some operands)
    : isDirective [name] line = true := by
  obtain ⟨d, known, named, -, -⟩ := directive_of_operandsOf? found
  exact isDirective_iff.mpr ⟨d, known, name, by simp, named.symm⟩

/-- A line with a blank behind the directive's name is no label. The symbol on it ends where the
name ends, and there stands no colon.
-/
theorem label?_of_directive {line : String} {d : Directive}
    (known : directive? line.toList = some d) (blank : d.rest.head?.any isBlank = true)
    : label? line = none := by
  simp only [directive?] at known
  split at known
  next text left =>
    cases known
    have start : isSymbolStart '.' = true := by decide
    cases rest : text.dropWhile isWord with
    | nil => simp [rest] at blank
    | cons c tail =>
        have blankHere : isBlank c = true := by simpa [rest] using blank
        have colon : c ≠ ':' := fun same => absurd (same ▸ blankHere) (by decide)
        have longer : text.dropWhile isSymbolChar = c :: tail := by
          have words : ∀ letter ∈ text.takeWhile isWord, isSymbolChar letter = true :=
            fun letter member =>
              isSymbolChar_of_isWord (List.all_eq_true.mp List.all_takeWhile letter member)
          rw [← List.takeWhile_append_dropWhile (p := isWord) (l := text), rest,
            List.dropWhile_append_of_pos words]
          simp [isSymbolChar_of_isBlank blankHere]
        simp [label?, left, symbol?, start, longer, colon]
  next => cases known

theorem label?_of_operandsOf? {name line : String} {operands : List Char}
    (found : operandsOf? name line.toList = some operands)
    : label? line = none := by
  obtain ⟨d, known, -, blank, -⟩ := directive_of_operandsOf? found
  exact label?_of_directive known blank

-----------------------------------------------------------------------------------------
-- The directive behind each form
-----------------------------------------------------------------------------------------

theorem operandsOf?_of_isFunctionSection {line : String}
    (opens : isFunctionSection line = true)
    : ∃ operands, operandsOf? "section" line.toList = some operands := by
  cases found : operandsOf? "section" line.toList with
  | none => simp [isFunctionSection, found] at opens
  | some operands => exact ⟨operands, rfl⟩

theorem operandsOf?_of_isRodataSection {line : String}
    (opens : isRodataSection line = true)
    : ∃ operands, operandsOf? "section" line.toList = some operands := by
  cases found : operandsOf? "section" line.toList with
  | none => simp [isRodataSection, found] at opens
  | some operands => exact ⟨operands, rfl⟩

theorem operandsOf?_of_isAnchor {line : String}
    (anchor : isAnchor line = true)
    : ∃ operands, operandsOf? "set" line.toList = some operands := by
  cases found : operandsOf? "set" line.toList with
  | none => simp [isAnchor, found] at anchor
  | some operands => exact ⟨operands, rfl⟩

/-- String data is the quoted operand of one of the payload directives. -/
theorem operandsOf?_of_payload? {line : String} {payload : Payload}
    (found : payload? line = some payload)
    : ∃ name ∈ payloadDirectives, ∃ text,
        operandsOf? name line.toList = some ('"' :: text) := by
  simp only [payload?, Option.bind_eq_bind, Option.bind_eq_some_iff] at found
  obtain ⟨d, known, found⟩ := found
  split at found
  next named =>
    obtain ⟨operands, parted, found⟩ := Option.bind_eq_some_iff.mp found
    split at found
    next text =>
      refine ⟨String.ofList d.name, by simpa using named, text, ?_⟩
      simp [operandsOf?, known, parted]
    next => cases found
  next => cases found

theorem operandsOf?_of_symbolThen? {name : String} {line : List Char}
    {pair : String × List Char}
    (found : symbolThen? name line = some pair)
    : ∃ operands, operandsOf? name line = some operands := by
  simp only [symbolThen?, Option.bind_eq_bind, Option.bind_eq_some_iff] at found
  obtain ⟨operands, known, -⟩ := found
  exact ⟨operands, known⟩

theorem operandsOf?_of_anchorDefinition? {line anchor : String}
    (found : anchorDefinition? line = some anchor)
    : ∃ operands, operandsOf? "set" line.toList = some operands := by
  simp only [anchorDefinition?, Option.bind_eq_bind, Option.bind_eq_some_iff] at found
  obtain ⟨pair, known, -⟩ := found
  exact operandsOf?_of_symbolThen? known

theorem operandsOf?_of_typeOf? {line : String} {type : String × String}
    (found : typeOf? line = some type)
    : ∃ operands, operandsOf? "type" line.toList = some operands := by
  simp only [typeOf?, Option.bind_eq_bind, Option.bind_eq_some_iff] at found
  obtain ⟨pair, known, -⟩ := found
  exact operandsOf?_of_symbolThen? known

theorem operandsOf?_of_sizeOf? {line : String} {size : String × String}
    (found : sizeOf? line = some size)
    : ∃ operands, operandsOf? "size" line.toList = some operands := by
  simp only [sizeOf?, Option.bind_eq_bind, Option.bind_eq_some_iff] at found
  obtain ⟨pair, known, -⟩ := found
  exact operandsOf?_of_symbolThen? known

/-- A reference to a symbol has operands of a word directive: the tab behind the name is a blank.
-/
theorem operandsOf?_of_wordReference? {line symbol : String}
    (found : wordReference? line = some symbol)
    : ∃ operands, operandsOf? "word" line.toList = some operands := by
  simp only [wordReference?, after?, Option.bind_eq_bind, Option.bind_eq_some_iff] at found
  obtain ⟨text, start, -⟩ := found
  split at start
  next starts =>
    obtain ⟨rest, same⟩ := List.isPrefixOf_iff_prefix.mp starts
    exact ⟨skipBlanks ('\t' :: rest), same ▸ rfl⟩
  next => cases start

-----------------------------------------------------------------------------------------
-- Forms that exclude each other
-----------------------------------------------------------------------------------------

theorem operandsOf?_of_isDirective {name : String} {names : List String} {line : List Char}
    (absent : name ∉ names) (holds : isDirective names line = true)
    : operandsOf? name line = none := by
  cases found : operandsOf? name line with
  | none => rfl
  | some operands =>
      have apart : ∀ other ∈ [name], other ∉ names := by simpa using absent
      rw [isDirective_of_apart apart (isDirective_of_operandsOf? found)] at holds
      contradiction

/-- A label line has no operands of any directive. -/
theorem operandsOf?_of_label? {line label : String}
    (found : label? line = some label) (name : String)
    : operandsOf? name line.toList = none := by
  cases known : operandsOf? name line.toList with
  | none => rfl
  | some operands =>
      rw [label?_of_operandsOf? known] at found
      contradiction

theorem isDirective_of_payload? {line : String} {payload : Payload}
    (found : payload? line = some payload)
    : isDirective payloadDirectives line.toList = true := by
  obtain ⟨name, member, text, known⟩ := operandsOf?_of_payload? found
  exact isDirective_mono (by simpa using member) (isDirective_of_operandsOf? known)

/-- A line with another directive stores no data. -/
theorem payload?_of_isDirective {names : List String} {line : String}
    (apart : ∀ name ∈ names, name ∉ payloadDirectives)
    (holds : isDirective names line.toList = true)
    : payload? line = none := by
  cases found : payload? line with
  | none => rfl
  | some payload =>
      have other := isDirective_of_apart apart holds
      rw [isDirective_of_payload? found] at other
      contradiction

theorem payload?_of_operandsOf? {name line : String} {operands : List Char}
    (apart : name ∉ payloadDirectives)
    (found : operandsOf? name line.toList = some operands)
    : payload? line = none :=
  payload?_of_isDirective (by simpa using apart) (isDirective_of_operandsOf? found)

theorem isAlign_of_operandsOf? {name line : String} {operands : List Char}
    (apart : name ∉ alignDirectives) (found : operandsOf? name line.toList = some operands)
    : isAlign line = false :=
  isDirective_of_apart (by simpa using apart) (isDirective_of_operandsOf? found)

theorem isSectionSwitch_of_isFunctionSection {line : String}
    (opens : isFunctionSection line = true)
    : isSectionSwitch line = true := by
  obtain ⟨operands, found⟩ := operandsOf?_of_isFunctionSection opens
  exact isDirective_mono (by decide) (isDirective_of_operandsOf? found)

theorem isSectionSwitch_of_isRodataSection {line : String}
    (opens : isRodataSection line = true)
    : isSectionSwitch line = true := by
  obtain ⟨operands, found⟩ := operandsOf?_of_isRodataSection opens
  exact isDirective_mono (by decide) (isDirective_of_operandsOf? found)

theorem isSectionSwitch_of_isAnchor {line : String}
    (anchor : isAnchor line = true)
    : isSectionSwitch line = false := by
  obtain ⟨operands, found⟩ := operandsOf?_of_isAnchor anchor
  exact isDirective_of_apart (by decide) (isDirective_of_operandsOf? found)

theorem isSectionSwitch_of_payload? {line : String} {payload : Payload}
    (found : payload? line = some payload)
    : isSectionSwitch line = false :=
  isDirective_of_apart (by decide) (isDirective_of_payload? found)

theorem isAnchor_of_payload? {line : String} {payload : Payload}
    (found : payload? line = some payload)
    : isAnchor line = false := by
  have absent : operandsOf? "set" line.toList = none :=
    operandsOf?_of_isDirective (by decide) (isDirective_of_payload? found)
  simp [isAnchor, absent]

theorem label?_of_payload? {line : String} {payload : Payload}
    (found : payload? line = some payload)
    : label? line = none := by
  obtain ⟨name, -, text, known⟩ := operandsOf?_of_payload? found
  exact label?_of_operandsOf? known

theorem payload?_of_label? {line label : String}
    (found : label? line = some label)
    : payload? line = none := by
  cases stored : payload? line with
  | none => rfl
  | some payload =>
      rw [label?_of_payload? stored] at found
      contradiction

theorem isAnchor_of_label? {line label : String}
    (found : label? line = some label)
    : isAnchor line = false := by
  simp [isAnchor, operandsOf?_of_label? found]

end RomStrings.Assembly
