import Mathlib.Data.List.Basic
import RomStrings.Proofs.Scan.Addresses

/-!
The lines that a scan writes, with where each comes from. An input line is written once, as it is or
as an annotation, and every other line defines a symbol.
-/

namespace RomStrings

/-- A line that a scan writes. -/
inductive OutputLine where
  /-- An input line as it is. -/
  | copied (line : String)
  /-- An input line behind the mark. -/
  | annotated (line : String)
  /-- The definition of an anchor that moves with its block. -/
  | anchor (symbol : String) (address : Address)
  /-- The definition of a block's label. -/
  | label (symbol : String) (address : Address)
  deriving DecidableEq, Repr

namespace OutputLine

def text (mark : String) : OutputLine → String
  | .copied line => line
  | .annotated line => Assembly.annotated mark line
  | .anchor symbol address => Assembly.definition symbol address
  | .label symbol address => Assembly.definition symbol address

/-- The input line that is written. -/
def source? : OutputLine → Option String
  | .copied line => some line
  | .annotated line => some line
  | .anchor _ _ => none
  | .label _ _ => none

@[simp] theorem source?_copied (line : String) : (copied line).source? = some line := rfl

@[simp] theorem source?_annotated (line : String) : (annotated line).source? = some line := rfl

@[simp] theorem source?_anchor (symbol : String) (address : Address)
    : (anchor symbol address).source? = none :=
  rfl

@[simp] theorem source?_label (symbol : String) (address : Address)
    : (label symbol address).source? = none :=
  rfl

/-- The lines that come from the input. -/
def fromInput (written : List OutputLine) : List OutputLine :=
  written.filter fun line => line.source?.isSome

theorem fromInput_append (written later : List OutputLine)
    : fromInput (written ++ later) = fromInput written ++ fromInput later :=
  List.filter_append written later

end OutputLine

def Segment.outputLines : Segment → List OutputLine
  | .resolved block found =>
      block.lines.map OutputLine.annotated
        ++ block.anchor.toList.map (OutputLine.anchor · found.address)
        ++ [.label block.label found.address]
  | segment => segment.source.map OutputLine.copied

def Segments.outputLines (segments : List Segment) : List OutputLine :=
  segments.flatMap Segment.outputLines

theorem Segment.outputLines_of_not_resolved {segment : Segment}
    (kept : segment.isResolved = false)
    : segment.outputLines = segment.source.map OutputLine.copied := by
  cases segment with
  | resolved block found => contradiction
  | copied _ | anchored _ _ | aborted _ _ | unmatched _ => rfl

theorem Segment.text_outputLines (mark : String) (segment : Segment)
    : segment.outputLines.map (OutputLine.text mark) = segment.output mark := by
  cases kept : segment.isResolved with
  | false =>
      rw [outputLines_of_not_resolved kept, Scan.output_of_not_resolved kept, List.map_map]
      exact List.map_id _
  | true =>
      cases segment with
      | resolved block found =>
          simp [outputLines, output, Assembly.replacement, Assembly.movedSymbols,
            OutputLine.text, Function.comp_def]
      | copied _ | anchored _ _ | aborted _ _ | unmatched _ => contradiction

/-- The input lines of a segment are all copied or all annotated. -/
theorem Segment.fromInput_outputLines (segment : Segment)
    : OutputLine.fromInput segment.outputLines
      = segment.source.map (if segment.isResolved then .annotated else .copied) := by
  cases kept : segment.isResolved with
  | false =>
      rw [outputLines_of_not_resolved kept]
      simp [OutputLine.fromInput, List.filter_map, Function.comp_def]
  | true =>
      cases segment with
      | resolved block found =>
          simp [OutputLine.fromInput, outputLines, source, List.filter_map, Function.comp_def]
      | copied _ | anchored _ _ | aborted _ _ | unmatched _ => contradiction

theorem Segment.source_outputLines (segment : Segment)
    : segment.outputLines.filterMap OutputLine.source? = segment.source := by
  cases kept : segment.isResolved with
  | false =>
      rw [outputLines_of_not_resolved kept]
      simp [List.filterMap_map, Function.comp_def]
  | true =>
      cases segment with
      | resolved block found =>
          simp [outputLines, source, List.filterMap_map, Function.comp_def]
      | copied _ | anchored _ _ | aborted _ _ | unmatched _ => contradiction

/-- A label is defined exactly where a block with it is resolved. -/
theorem Segment.label_mem_outputLines {segment : Segment} {label : String} {address : Address}
    : .label label address ∈ segment.outputLines
      ↔ segment.resolution? = some (label, address) := by
  cases segment with
  | copied _ | anchored _ _ | aborted _ _ | unmatched _ => simp [outputLines, resolution?]
  | resolved block found =>
      simp only [outputLines, resolution?, List.mem_append, List.mem_map, List.mem_singleton,
        OutputLine.label.injEq, reduceCtorEq, and_false, exists_false, false_or, Option.some.injEq,
        Prod.mk.injEq]
      exact and_congr eq_comm eq_comm

namespace Segments

/-- The lines are those of the output. -/
theorem text_outputLines (mark : String) (segments : List Segment)
    : (outputLines segments).map (OutputLine.text mark) = output mark segments := by
  simp only [outputLines, output, List.map_flatMap, Segment.text_outputLines]

/-- The input lines among them are those of the input, in order. -/
theorem source_outputLines (segments : List Segment)
    : (outputLines segments).filterMap OutputLine.source? = source segments := by
  simp only [outputLines, source, List.filterMap_flatMap, Segment.source_outputLines]

end Segments

-----------------------------------------------------------------------------------------
-- Where lines come from
-----------------------------------------------------------------------------------------

/-- A symbol that one of the lines labels, or sets as an anchor. -/
def SymbolOf (lines : List String) (symbol : String) : Prop :=
  ∃ line ∈ lines,
    Assembly.label? line = some symbol ∨ Assembly.anchorDefinition? line = some symbol

theorem SymbolOf.isSymbol {lines : List String} {symbol : String} (own : SymbolOf lines symbol)
    : Assembly.IsSymbol symbol := by
  obtain ⟨line, -, labels | defines⟩ := own
  · exact (Assembly.isSymbol_of_label? labels).1
  · exact Assembly.isSymbol_of_anchorDefinition? defines

namespace Scan

/-- The lines that a scan of the input may write where it settles the segments. -/
inductive Writes (lines : List String) (segments : List Segment) : OutputLine → Prop
  | copied {line} (read : line ∈ lines) : Writes lines segments (.copied line)
  | annotated {line} (read : line ∈ lines) (some : Segments.resolution segments ≠ [])
    : Writes lines segments (.annotated line)
  | anchor {symbol address} (own : SymbolOf lines symbol)
    : Writes lines segments (.anchor symbol address)
  | label {symbol address} (own : SymbolOf lines symbol)
    : Writes lines segments (.label symbol address)

/-- Every line of the output is one of these, by cases on the segment that it is written of. -/
theorem writes_of_mem {table : Rom.Table} {lines : List String} {segments : List Segment}
    {line : OutputLine} (success : Scan.segments table lines = .ok segments)
    (written : line ∈ Segments.outputLines segments)
    : Writes lines segments line := by
  obtain ⟨segment, known, member⟩ := List.mem_flatMap.mp written
  have read : ∀ own ∈ segment.source, own ∈ lines := by
    intro own inside
    rw [← source_segments success]
    exact List.mem_flatMap.mpr ⟨segment, known, inside⟩
  cases kept : segment.isResolved with
  | false =>
      rw [Segment.outputLines_of_not_resolved kept] at member
      obtain ⟨own, inside, rfl⟩ := List.mem_map.mp member
      exact .copied (read own inside)
  | true =>
      have some : Segments.resolution segments ≠ [] := by
        intro none
        rw [resolution_eq_nil_iff.mp none segment known] at kept
        cases kept
      cases segment with
      | copied _ | anchored _ _ | aborted _ _ | unmatched _ => contradiction
      | resolved block found =>
          obtain ⟨before, after, rfl⟩ := List.append_of_mem known
          have own (symbol : String)
              (moved : symbol ∈ Assembly.movedSymbols block.label block.anchor)
              : SymbolOf lines symbol := by
            obtain ⟨line, inside, gives⟩ :=
              (resolves_of_segments success).symbol_line symbol moved
            exact ⟨line, read line inside, gives⟩
          simp only [Segment.outputLines, List.mem_append, List.mem_map, List.mem_singleton]
            at member
          rcases member with (⟨line, inside, rfl⟩ | ⟨anchor, moved, rfl⟩) | rfl
          · exact .annotated (read line inside) some
          · exact .anchor (own anchor (by simp [Assembly.movedSymbols, moved]))
          · exact .label (own block.label (by simp [Assembly.movedSymbols]))

/-- Where something is resolved, some line is an annotation: the one with the label. -/
theorem exists_annotated {table : Rom.Table} {lines : List String} {segments : List Segment}
    (success : Scan.segments table lines = .ok segments)
    (some : Segments.resolution segments ≠ [])
    : ∃ line, .annotated line ∈ Segments.outputLines segments := by
  rw [Ne, resolution_eq_nil_iff] at some
  simp only [not_forall, Bool.not_eq_false] at some
  obtain ⟨segment, known, resolved⟩ := some
  cases segment with
  | copied _ | anchored _ _ | aborted _ _ | unmatched _ => contradiction
  | resolved block found =>
      obtain ⟨before, after, rfl⟩ := List.append_of_mem known
      obtain ⟨line, inside, -⟩ := (resolves_of_segments success).symbol_line block.label
        (by simp [Assembly.movedSymbols])
      exact ⟨line, List.mem_flatMap.mpr ⟨_, known, by simp [Segment.outputLines, inside]⟩⟩

end Scan

end RomStrings
