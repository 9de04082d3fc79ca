import RomStrings.Proofs.Assembly.References
import RomStrings.Proofs.Scan.OutputLines
import RomStrings.Proofs.Text.Digits

/-!
The characters of the output. Each comes from a line of the input or from the mark, but for a few
that stand around symbols and addresses. So a class of characters that has those few has all of the
output if it has the input and the mark.
-/

namespace RomStrings

open Text

-----------------------------------------------------------------------------------------
-- Symbols within lines
-----------------------------------------------------------------------------------------

namespace Assembly

theorem skipBlanks_subset (text : List Char) : skipBlanks text ⊆ text :=
  (List.dropWhile_suffix isBlank).subset

theorem subset_of_operandsOf? {name : String} {line operands : List Char}
    (found : operandsOf? name line = some operands)
    : operands ⊆ line := by
  obtain ⟨d, known, -, -, rfl⟩ := directive_of_operandsOf? found
  exact fun c member => (suffix_of_directive? known).subset (skipBlanks_subset _ member)

theorem subset_of_anchorDefinition? {line anchor : String}
    (found : anchorDefinition? line = some anchor)
    : anchor.toList ⊆ line.toList := by
  simp only [anchorDefinition?, symbolThen?, Option.bind_eq_bind, Option.bind_eq_some_iff] at found
  obtain ⟨⟨symbol, value⟩, ⟨operands, known, ⟨read, rest⟩, starts, second, -, same⟩, here⟩ := found
  cases same
  split at here
  next =>
    cases here
    obtain ⟨-, shape⟩ := isSymbol_of_symbol? starts
    exact fun c member => subset_of_operandsOf? known (shape ▸ List.mem_append_left _ member)
  next => cases here

theorem subset_of_label? {line label : String} (found : label? line = some label)
    : label.toList ⊆ line.toList := by
  obtain ⟨-, rest, shape⟩ := isSymbol_of_label? found
  exact fun c member => skipBlanks_subset _ (shape ▸ List.mem_append_left _ member)

end Assembly

theorem SymbolOf.subset {lines : List String} {symbol : String} (own : SymbolOf lines symbol)
    : ∃ line ∈ lines, symbol.toList ⊆ line.toList := by
  obtain ⟨line, known, labels | defines⟩ := own
  · exact ⟨line, known, Assembly.subset_of_label? labels⟩
  · exact ⟨line, known, Assembly.subset_of_anchorDefinition? defines⟩

-----------------------------------------------------------------------------------------
-- Classes of characters
-----------------------------------------------------------------------------------------

/-- Every character of the line is in the class. -/
def Within (kind : Char → Bool) (line : String) : Prop :=
  ∀ c ∈ line.toList, kind c = true

instance (kind : Char → Bool) (line : String) : Decidable (Within kind line) :=
  decidable_of_iff (line.toList.all kind = true) List.all_eq_true

/-- The characters that stand around symbols, marks and input lines. -/
def surroundings : String := "\t.word =x-0123456789abcdef"

variable {kind : Char → Bool}

theorem within_append {first second : String}
    : Within kind (first ++ second) ↔ Within kind first ∧ Within kind second := by
  simp only [Within, String.toList_append, List.forall_mem_append]

theorem Within.of_subset {first second : String} (within : Within kind second)
    (subset : first.toList ⊆ second.toList)
    : Within kind first :=
  fun c member => within c (subset member)

section Own

variable (own : Within kind surroundings)
include own

theorem within_address (address : Address) : Within kind (Address.text address) := by
  have digits (n : Nat) : Within kind (String.ofList (hexNumeral n)) := by
    have known : ∀ digit < 16, Nat.digitChar digit ∈ surroundings.toList := by decide +kernel
    intro c member
    have listed : c ∈ Nat.toDigits 16 n := by simpa [hexNumeral] using member
    obtain ⟨digit, small, rfl⟩ := mem_toDigits (by decide) listed
    exact own _ (known digit small)
  cases address with
  | ofNat n => exact within_append.mpr ⟨own.of_subset (by decide +kernel), digits n⟩
  | negSucc n => exact within_append.mpr ⟨own.of_subset (by decide +kernel), digits (n + 1)⟩

theorem within_definition {symbol : String} (within : Within kind symbol) (address : Address)
    : Within kind (Assembly.definition symbol address) := by
  have equals : Within kind " = " := own.of_subset (by decide +kernel)
  exact within_append.mpr ⟨within_append.mpr ⟨within, equals⟩, within_address own address⟩

theorem within_annotated {mark line : String} (mild : Within kind mark)
    (within : Within kind line)
    : Within kind (Assembly.annotated mark line) :=
  within_append.mpr ⟨within_append.mpr ⟨mild, own.of_subset (by decide +kernel)⟩, within⟩

/-- What a scan writes is in a class if the input and the mark are. The mark does not matter if
nothing is resolved.
-/
theorem within_written {table : Rom.Table} {lines : List String} {segments : List Segment}
    (success : Scan.segments table lines = .ok segments)
    (input : ∀ line ∈ lines, Within kind line) {mark : String}
    (mild : Within kind mark ∨ Segments.resolution segments = []) {line : OutputLine}
    (written : line ∈ Segments.outputLines segments)
    : Within kind (line.text mark) := by
  have defined {symbol : String} (stands : SymbolOf lines symbol) (address : Address)
      : Within kind (Assembly.definition symbol address) := by
    obtain ⟨line, known, subset⟩ := stands.subset
    exact within_definition own ((input line known).of_subset subset) address
  cases Scan.writes_of_mem success written with
  | copied read => exact input _ read
  | annotated read some => exact within_annotated own (mild.resolve_right some) (input _ read)
  | anchor stands => exact defined stands _
  | label stands => exact defined stands _

/-- So is a line whose reference is resolved, since it shows a label of the line it replaces. -/
theorem within_resolve {mark line : String} {resolution : Resolution}
    (mild : Within kind mark ∨ resolution = []) (within : Within kind line)
    : Within kind (Reference.resolve mark resolution line) := by
  rw [Reference.resolve]
  cases found : Reference.resolve? mark resolution line with
  | none => exact within
  | some new =>
      obtain ⟨label, address, refers, listed, rfl⟩ := Reference.resolve?_eq_some_iff.mp found
      have marked : Within kind mark := by
        refine mild.resolve_right fun none => ?_
        rw [none] at listed
        cases listed
      have symbol : Within kind label := by
        obtain ⟨rest, shape, -⟩ := Assembly.toList_of_wordReference? refers
        refine within.of_subset fun c member => ?_
        simp [shape, member]
      have word : Within kind "\t.word\t" := own.of_subset (by decide +kernel)
      have tab : Within kind "\t" := own.of_subset (by decide +kernel)
      exact within_append.mpr
        ⟨within_append.mpr ⟨within_append.mpr ⟨word, within_address own address⟩, tab⟩,
          within_annotated own marked symbol⟩

end Own

end RomStrings
