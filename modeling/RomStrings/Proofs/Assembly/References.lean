import Mathlib.Data.List.TakeWhile
import RomStrings.Options
import RomStrings.Proofs.Assembly.Replaced

/-!
Lines that refer to a symbol, and what resolving them does. A reference has one exact form, which no
annotation, no definition and no resolved reference has.
-/

namespace RomStrings

-----------------------------------------------------------------------------------------
-- Lines that refer to a symbol
-----------------------------------------------------------------------------------------

namespace Assembly

/-- A symbol is read to its end, in front of anything that does not continue it. -/
theorem symbol?_append {symbol : String} (isSymbol : IsSymbol symbol) {rest : List Char}
    (stops : ∀ c ∈ rest.head?, isSymbolChar c = false)
    : symbol? (symbol.toList ++ rest) = some (symbol, rest) := by
  obtain ⟨first, tail, shape, start, continues⟩ := isSymbol
  have nothing : rest.takeWhile isSymbolChar = [] := by
    rw [List.takeWhile_eq_nil_iff]
    intro some
    have head := stops rest[0] (by simp [List.head?_eq_getElem?])
    simp [head]
  have whole : (tail ++ rest).takeWhile isSymbolChar = tail := by
    rw [List.takeWhile_append_of_pos continues, nothing, List.append_nil]
  have left : (tail ++ rest).dropWhile isSymbolChar = rest := by
    have parts : (tail ++ rest).takeWhile isSymbolChar ++ (tail ++ rest).dropWhile isSymbolChar
        = tail ++ rest :=
      List.takeWhile_append_dropWhile
    rw [whole] at parts
    exact List.append_cancel_left parts
  rw [shape, List.cons_append, symbol?, if_pos start, whole, left, ← shape, String.ofList_toList]

theorem symbol?_of_isSymbol {symbol : String} (isSymbol : IsSymbol symbol)
    : symbol? symbol.toList = some (symbol, []) := by
  have read : symbol? (symbol.toList ++ []) = some (symbol, []) :=
    symbol?_append isSymbol (by simp)
  simpa using read

theorem wordReference?_reference {symbol : String} (isSymbol : IsSymbol symbol)
    : wordReference? ("\t.word\t" ++ symbol) = some symbol := by
  simp [wordReference?, after?, symbol?_of_isSymbol isSymbol]

/-- A reference is the directive and the symbol, perhaps with a line feed behind. -/
theorem toList_of_wordReference? {line symbol : String}
    (found : wordReference? line = some symbol)
    : ∃ rest,
        line.toList = "\t.word\t".toList ++ (symbol.toList ++ rest)
        ∧ (rest = [] ∨ rest = ['\n']) := by
  simp only [wordReference?, after?, Option.bind_eq_bind, Option.bind_eq_some_iff] at found
  obtain ⟨text, start, ⟨read, rest⟩, known, ends⟩ := found
  split at start
  next starts =>
    obtain ⟨own, whole⟩ := List.isPrefixOf_iff_prefix.mp starts
    have same : text = own := by simpa [← whole] using start.symm
    obtain ⟨-, shape⟩ := isSymbol_of_symbol? known
    simp only at ends
    split at ends
    next ending =>
      cases ends
      exact ⟨rest, by rw [← whole, ← shape, same], ending⟩
    next => cases ends
  next => cases start

/-- What a line refers to is a symbol. -/
theorem isSymbol_of_wordReference? {line symbol : String}
    (found : wordReference? line = some symbol)
    : IsSymbol symbol := by
  simp only [wordReference?, Option.bind_eq_bind, Option.bind_eq_some_iff] at found
  obtain ⟨text, -, ⟨read, rest⟩, known, ends⟩ := found
  simp only at ends
  split at ends
  next =>
    cases ends
    exact (isSymbol_of_symbol? known).1
  next => cases ends

/-- A line without a line feed refers to a symbol in the exact form only. -/
theorem eq_of_wordReference? {line symbol : String} (unbroken : '\n' ∉ line.toList)
    (found : wordReference? line = some symbol)
    : line = "\t.word\t" ++ symbol := by
  obtain ⟨rest, shape, rfl | rfl⟩ := toList_of_wordReference? found
  · apply String.toList_inj.mp
    rw [shape, String.toList_append, List.append_nil]
  · rw [shape] at unbroken
    simp at unbroken

/-- A line that does not start with a tab refers to nothing. -/
theorem wordReference?_of_head {line : String} (plain : line.toList.head? ≠ some '\t')
    : wordReference? line = none := by
  cases found : wordReference? line with
  | none => rfl
  | some symbol =>
      obtain ⟨rest, shape, -⟩ := toList_of_wordReference? found
      rw [shape] at plain
      exact absurd rfl plain

/-- An annotation refers to nothing, since no mark starts with a tab. -/
theorem wordReference?_annotation (options : Options) (line : String)
    : wordReference? (annotated options.comment line) = none := by
  apply wordReference?_of_head
  have accepted := options.accepted
  simp only [isCommentMark, Bool.and_eq_true, Bool.not_eq_true'] at accepted
  obtain ⟨nonempty, plain⟩ := accepted
  rw [annotated, String.toList_append, String.toList_append]
  cases mark : options.comment.toList with
  | nil => simp [mark] at nonempty
  | cons first rest =>
      intro tab
      cases tab
      have blank : Text.isBlank '\t' = true := by decide
      simp [mark, blank] at plain

/-- A resolved reference refers to nothing, since no symbol starts with a digit. -/
theorem wordReference?_resolvedLine (mark label : String) (address : Address)
    : wordReference? (Reference.resolvedLine mark label address) = none := by
  have digit : ∃ rest, (Address.text address).toList = '0' :: rest := by
    cases address <;> exact ⟨_, by simp [Address.text]; rfl⟩
  obtain ⟨rest, digit⟩ := digit
  have noSymbol : isSymbolStart '0' = false := by decide
  simp [wordReference?, after?, Reference.resolvedLine, digit, symbol?, noSymbol]

end Assembly

-----------------------------------------------------------------------------------------
-- References that are resolved
-----------------------------------------------------------------------------------------

namespace Reference

variable {mark line new : String} {resolution : Resolution}

/-- What a resolved reference looks like. -/
theorem resolvedLine_eq (mark label : String) (address : Address)
    : resolvedLine mark label address
      = "\t.word\t" ++ Address.text address ++ "\t" ++ mark ++ " " ++ label := by
  simp [resolvedLine, Assembly.annotated, String.append_assoc]

/-- A reference is resolved if it is one to a resolved label. -/
theorem resolve?_eq_some_iff
    : resolve? mark resolution line = some new
      ↔ ∃ label address,
          Assembly.wordReference? line = some label
          ∧ resolution.find? label = some address
          ∧ resolvedLine mark label address = new := by
  simp [resolve?, Option.bind_eq_some_iff]

theorem resolve_definition {symbol : String} (isSymbol : Assembly.IsSymbol symbol)
    (mark : String) (resolution : Resolution) (address : Address)
    : resolve mark resolution (Assembly.definition symbol address)
      = Assembly.definition symbol address := by
  simp [resolve, resolve?, Assembly.wordReference?_definition isSymbol]

theorem resolve_annotation (options : Options) (resolution : Resolution) (line : String)
    : resolve options.comment resolution (Assembly.annotated options.comment line)
      = Assembly.annotated options.comment line := by
  simp [resolve, resolve?, Assembly.wordReference?_annotation]

/-- A line changes exactly if its reference is resolved, since what is written then refers to
nothing.
-/
theorem resolve_ne_iff
    : resolve mark resolution line ≠ line ↔ (resolve? mark resolution line).isSome = true := by
  rw [resolve]
  cases found : resolve? mark resolution line with
  | none => simp
  | some new =>
      obtain ⟨label, address, refers, -, rfl⟩ := resolve?_eq_some_iff.mp found
      simp only [Option.getD_some, Option.isSome_some, iff_true]
      intro same
      rw [← same, Assembly.wordReference?_resolvedLine] at refers
      cases refers

/-- As many lines change as references are resolved, by induction on the lines. -/
theorem countP_resolve (mark : String) (resolution : Resolution) (lines : List String)
    : ((lines.zip (lines.map (resolve mark resolution))).countP fun pair => pair.1 ≠ pair.2)
      = (resolveAll mark resolution lines).count := by
  simp only [resolveAll]
  induction lines with
  | nil => rfl
  | cons line rest ih =>
      have head : (line ≠ resolve mark resolution line) ↔ _ := ne_comm.trans resolve_ne_iff
      simp only [List.map_cons, List.zip_cons_cons, List.countP_cons, ih, head]
      simp

end Reference

end RomStrings
