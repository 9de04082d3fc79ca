import RomStrings.Proofs.Assembly.Forms
import RomStrings.Reference

/-!
The lines that a replacement writes, read as input again. Annotations and resolved references have
no form that a scan looks for. A definition has none but that it may look like a section directive,
and it does so exactly if the label line of its symbol does.
-/

namespace RomStrings.Assembly

open Text

-----------------------------------------------------------------------------------------
-- Lines without a form
-----------------------------------------------------------------------------------------

/-- The directives that a scan looks for. -/
def scannedDirectives : List String :=
  sectionDirectives ++ payloadDirectives ++ alignDirectives ++ ["set", "type", "size"]

/-- The line has none of the forms that a scan looks for. -/
structure Inert (line : String) : Prop where
  directive : isDirective scannedDirectives line.toList = false
  label : label? line = none

namespace Inert

variable {line : String}

theorem isDirective {names : List String} (inert : Inert line)
    (scanned : ∀ name ∈ names, name ∈ scannedDirectives)
    : isDirective names line.toList = false := by
  cases holds : Assembly.isDirective names line.toList with
  | false => rfl
  | true =>
      have none := inert.directive
      rw [isDirective_mono scanned holds] at none
      contradiction

theorem operandsOf? {name : String} (inert : Inert line) (scanned : name ∈ scannedDirectives)
    : operandsOf? name line.toList = none := by
  cases found : Assembly.operandsOf? name line.toList with
  | none => rfl
  | some operands =>
      have absent : Assembly.isDirective [name] line.toList = false :=
        inert.isDirective (by simpa using scanned)
      rw [isDirective_of_operandsOf? found] at absent
      contradiction

theorem isFunctionSection (inert : Inert line) : isFunctionSection line = false := by
  simp [Assembly.isFunctionSection, inert.operandsOf? (by decide : "section" ∈ _)]

theorem isSectionSwitch (inert : Inert line) : isSectionSwitch line = false :=
  inert.isDirective (by decide)

theorem isAnchor (inert : Inert line) : isAnchor line = false := by
  simp [Assembly.isAnchor, inert.operandsOf? (by decide : "set" ∈ _)]

theorem isAlign (inert : Inert line) : isAlign line = false :=
  inert.isDirective (by decide)

theorem payload? (inert : Inert line) : payload? line = none := by
  cases found : Assembly.payload? line with
  | none => rfl
  | some payload =>
      have absent : Assembly.isDirective payloadDirectives line.toList = false :=
        inert.isDirective (by decide)
      rw [isDirective_of_payload? found] at absent
      contradiction

theorem anchorDefinition? (inert : Inert line) : anchorDefinition? line = none := by
  simp [Assembly.anchorDefinition?, symbolThen?, inert.operandsOf? (by decide : "set" ∈ _)]

theorem typeOf? (inert : Inert line) : typeOf? line = none := by
  simp [Assembly.typeOf?, symbolThen?, inert.operandsOf? (by decide : "type" ∈ _)]

theorem sizeOf? (inert : Inert line) : sizeOf? line = none := by
  simp [Assembly.sizeOf?, symbolThen?, inert.operandsOf? (by decide : "size" ∈ _)]

/-- A line with other directives is inert if it is no label. -/
theorem of_isDirective {names : List String}
    (apart : ∀ name ∈ names, name ∉ scannedDirectives)
    (holds : Assembly.isDirective names line.toList = true) (label : label? line = none)
    : Inert line :=
  { directive := isDirective_of_apart apart holds, label }

end Inert

-----------------------------------------------------------------------------------------
-- Annotations and references
-----------------------------------------------------------------------------------------

theorem toList_annotated (line : String)
    : (annotated "@" line).toList = '@' :: ' ' :: line.toList := by
  simp [annotated]

/-- A line behind the usual mark is inert: the mark starts no directive and no symbol. -/
theorem inert_annotated (line : String) : Inert (annotated "@" line) := by
  have left : skipBlanks (annotated "@" line).toList = '@' :: ' ' :: line.toList := by
    rw [toList_annotated]
    rfl
  exact {
    directive := by simp [isDirective, directive?, left]
    label := by simp [label?, left, symbol?, (by decide : isSymbolStart '@' = false)]
  }

/-- A reference is inert: its directive is none that a scan looks for. -/
theorem inert_of_wordReference? {line symbol : String}
    (found : wordReference? line = some symbol)
    : Inert line := by
  obtain ⟨operands, known⟩ := operandsOf?_of_wordReference? found
  exact Inert.of_isDirective (by decide) (isDirective_of_operandsOf? known)
    (label?_of_operandsOf? known)

/-- A resolved reference is inert too: it is a word directive with other operands. -/
theorem inert_resolvedLine (mark label : String) (address : Address)
    : Inert (Reference.resolvedLine mark label address) := by
  have shape : ∃ rest, (Reference.resolvedLine mark label address).toList
      = "\t.word\t".toList ++ rest := by
    simp only [Reference.resolvedLine, String.toList_append, List.append_assoc]
    exact ⟨_, rfl⟩
  obtain ⟨rest, shape⟩ := shape
  have known : operandsOf? "word" (Reference.resolvedLine mark label address).toList
      = some (skipBlanks ('\t' :: rest)) := by
    rw [shape]
    rfl
  exact Inert.of_isDirective (by decide) (isDirective_of_operandsOf? known)
    (label?_of_operandsOf? known)

/-- Resolving references keeps a line, or it turns an inert line into another. -/
theorem resolve_eq_or_inert (mark : String) (resolution : Resolution) (line : String)
    : Reference.resolve mark resolution line = line
      ∨ Inert line ∧ Inert (Reference.resolve mark resolution line) := by
  cases found : wordReference? line with
  | none => simp [Reference.resolve, Reference.resolve?, found]
  | some label =>
      cases known : resolution.find? label with
      | none => simp [Reference.resolve, Reference.resolve?, found, known]
      | some address =>
          have same : Reference.resolve mark resolution line
              = Reference.resolvedLine mark label address := by
            simp [Reference.resolve, Reference.resolve?, found, known]
          rw [same]
          exact Or.inr ⟨inert_of_wordReference? found, inert_resolvedLine mark label address⟩

-----------------------------------------------------------------------------------------
-- Definitions
-----------------------------------------------------------------------------------------

/-- The text is a symbol from its first character to its last. -/
def IsSymbol (text : String) : Prop :=
  ∃ c rest, text.toList = c :: rest
    ∧ isSymbolStart c = true
    ∧ ∀ letter ∈ rest, isSymbolChar letter = true

/-- What is read as a symbol is one, and what follows it is the rest of the text. -/
theorem isSymbol_of_symbol? {text rest : List Char} {symbol : String}
    (found : symbol? text = some (symbol, rest))
    : IsSymbol symbol ∧ text = symbol.toList ++ rest := by
  cases text with
  | nil => simp [symbol?] at found
  | cons c tail =>
      simp only [symbol?] at found
      split at found
      next start =>
        cases found
        refine ⟨⟨c, tail.takeWhile isSymbolChar, by simp, start, ?_⟩, by simp⟩
        exact fun letter member => List.all_eq_true.mp List.all_takeWhile letter member
      next => cases found

/-- A label line is a symbol and a colon, with blanks before and behind. -/
theorem isSymbol_of_label? {line label : String}
    (found : label? line = some label)
    : IsSymbol label ∧ ∃ rest, skipBlanks line.toList = label.toList ++ ':' :: rest := by
  simp only [label?, Option.bind_eq_bind, Option.bind_eq_some_iff] at found
  obtain ⟨⟨symbol, rest⟩, read, found⟩ := found
  obtain ⟨isSymbol, text⟩ := isSymbol_of_symbol? read
  simp only at found
  split at found
  next tail =>
    split at found
    next => cases found; exact ⟨isSymbol, tail, text⟩
    next => cases found
  next => cases found

/-- A symbol of two operands is a symbol. -/
theorem isSymbol_of_symbolThen? {name symbol : String} {line second : List Char}
    (found : symbolThen? name line = some (symbol, second))
    : IsSymbol symbol := by
  simp only [symbolThen?, Option.bind_eq_bind, Option.bind_eq_some_iff] at found
  obtain ⟨operands, -, ⟨read, rest⟩, known, found⟩ := found
  obtain ⟨tail, -, found⟩ := found
  cases found
  exact (isSymbol_of_symbol? known).1

theorem isSymbol_of_anchorDefinition? {line anchor : String}
    (found : anchorDefinition? line = some anchor)
    : IsSymbol anchor := by
  simp only [anchorDefinition?, Option.bind_eq_bind, Option.bind_eq_some_iff] at found
  obtain ⟨pair, known, found⟩ := found
  split at found
  next => cases found; exact isSymbol_of_symbolThen? known
  next => cases found

theorem isDirective_skipBlanks (names : List String) (line : List Char)
    : isDirective names (skipBlanks line) = isDirective names line := by
  simp [isDirective, directive?, skipBlanks_skipBlanks]

/-- A run of word characters ends at the latest where a character is none, by induction on the
text before that character.
-/
theorem words_append (text : List Char) {c : Char} (ends : isWord c = false) (more : List Char)
    : (text ++ c :: more).takeWhile isWord = text.takeWhile isWord
      ∧ (text ++ c :: more).dropWhile isWord = text.dropWhile isWord ++ c :: more := by
  induction text with
  | nil => simp [ends]
  | cons d rest ih =>
      cases word : isWord d with
      | false => simp [word]
      | true => simp [word, ih.1, ih.2]

/-- The directive on a line that starts with a symbol, where the symbol starts with a dot. -/
theorem directive?_symbol {symbol : String} (isSymbol : IsSymbol symbol) {c : Char}
    (ends : isWord c = false) (more : List Char)
    : directive? (symbol.toList ++ c :: more)
      = (directive? symbol.toList).map fun d => { d with rest := d.rest ++ c :: more } := by
  obtain ⟨first, rest, shape, start, -⟩ := isSymbol
  have plain := not_isBlank_of_isSymbolStart start
  by_cases dot : first = '.'
  · subst dot
    obtain ⟨name, behind⟩ := words_append rest ends more
    simp [directive?, shape, skipBlanks, plain, name, behind]
  · simp [directive?, shape, skipBlanks, plain, dot]

/-- What directive a line holds that starts with a symbol is up to the symbol. -/
theorem isDirective_symbol {symbol : String} (isSymbol : IsSymbol symbol) {c : Char}
    (ends : isWord c = false) (more : List Char) (names : List String)
    : isDirective names (symbol.toList ++ c :: more) = isDirective names symbol.toList := by
  simp only [isDirective, directive?_symbol isSymbol ends more]
  cases directive? symbol.toList <;> rfl

theorem toList_definition (symbol : String) (address : Address)
    : (definition symbol address).toList
      = symbol.toList ++ ' ' :: '=' :: ' ' :: (Address.text address).toList := by
  simp [definition]

/-- The operands of a definition, read as a directive, start with its equals sign. If the symbol
goes on behind the directive's name, no blank does, and there are no operands.
-/
theorem operandsOf?_definition {symbol : String} (isSymbol : IsSymbol symbol)
    (address : Address) (name : String)
    : ∀ operands, operandsOf? name (definition symbol address).toList = some operands
        → operands.head? = some '=' := by
  intro operands found
  obtain ⟨d, known, -, blank, rfl⟩ := directive_of_operandsOf? found
  obtain ⟨first, rest, shape, start, continues⟩ := isSymbol
  rw [toList_definition, directive?_symbol ⟨first, rest, shape, start, continues⟩ (by decide)]
    at known
  obtain ⟨e, own, rfl⟩ := Option.map_eq_some_iff.mp known
  have tail : ∀ letter ∈ e.rest, isSymbolChar letter = true := by
    have plain := not_isBlank_of_isSymbolStart start
    simp only [directive?, shape, skipBlanks, List.dropWhile_cons, plain] at own
    split at own
    next text same =>
      cases own
      cases same
      exact fun letter member => continues letter ((List.dropWhile_suffix isWord).mem member)
    next => cases own
  cases behind : e.rest with
  | nil => rfl
  | cons letter others =>
      have continued := tail letter (by simp [behind])
      have blankHere : isBlank letter = true := by simpa [behind] using blank
      rw [isSymbolChar_of_isBlank blankHere] at continued
      contradiction

section Definition

variable {symbol : String} (isSymbol : IsSymbol symbol) (address : Address)
include isSymbol

/-- A definition opens no section of a function-name object, as no operand starts with a dot. -/
theorem isFunctionSection_definition
    : isFunctionSection (definition symbol address) = false := by
  cases found : operandsOf? "section" (definition symbol address).toList with
  | none => simp [isFunctionSection, found]
  | some operands =>
      obtain ⟨rest, rfl⟩ := List.head?_eq_some_iff.mp
        (operandsOf?_definition isSymbol address _ _ found)
      simp [isFunctionSection, found, after?]

theorem isAnchor_definition
    : isAnchor (definition symbol address) = false := by
  cases found : operandsOf? "set" (definition symbol address).toList with
  | none => simp [isAnchor, found]
  | some operands =>
      obtain ⟨rest, rfl⟩ := List.head?_eq_some_iff.mp
        (operandsOf?_definition isSymbol address _ _ found)
      simp [isAnchor, found, after?]

/-- A definition stores no data, since its operands are not quoted. -/
theorem payload?_definition
    : payload? (definition symbol address) = none := by
  cases stored : payload? (definition symbol address) with
  | none => rfl
  | some payload =>
      obtain ⟨name, -, text, found⟩ := operandsOf?_of_payload? stored
      have := operandsOf?_definition isSymbol address _ _ found
      simp at this

/-- A definition is no label: behind its symbol stands a blank and no colon. -/
theorem label?_definition
    : label? (definition symbol address) = none := by
  obtain ⟨first, rest, shape, start, continues⟩ := isSymbol
  have plain := not_isBlank_of_isSymbolStart start
  have stop : isSymbolChar ' ' = false := by decide
  simp [label?, toList_definition, shape, skipBlanks, plain, symbol?, start,
    List.dropWhile_append_of_pos continues, stop]

/-- A definition refers to nothing, since a symbol does not start with a tab. -/
theorem wordReference?_definition
    : wordReference? (definition symbol address) = none := by
  obtain ⟨first, rest, shape, start, -⟩ := isSymbol
  have tab : first ≠ '\t' := fun same => absurd (same ▸ start) (by decide)
  have tab' : ('\t' == first) = false := by simpa using tab.symm
  simp [wordReference?, after?, toList_definition, shape, List.isPrefixOf, tab']

end Definition

/-- A definition changes the section exactly if the label line of its symbol does. -/
theorem isSectionSwitch_definition {line label : String}
    (found : label? line = some label) (address : Address)
    : isSectionSwitch (definition label address) = isSectionSwitch line := by
  obtain ⟨isSymbol, rest, shape⟩ := isSymbol_of_label? found
  rw [isSectionSwitch, isSectionSwitch, ← isDirective_skipBlanks _ line.toList, shape,
    toList_definition, isDirective_symbol isSymbol (by decide),
    isDirective_symbol isSymbol (by decide)]

end RomStrings.Assembly
