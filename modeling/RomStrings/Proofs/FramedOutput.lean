import RomStrings.Proofs.DoneJobs
import RomStrings.Proofs.Scan.OutputLines
import RomStrings.Proofs.Text.Breaks

/-!
How the text that replaces another one is framed. It has the line breaks of that text, all of them
line feeds, and one more for each symbol that it defines.
-/

namespace RomStrings

open Text

-----------------------------------------------------------------------------------------
-- Lines that are written besides those read
-----------------------------------------------------------------------------------------

/-- The line defines a symbol. -/
def OutputLine.isDefinition : OutputLine → Bool
  | .anchor _ _ => true
  | .label _ _ => true
  | .copied _ => false
  | .annotated _ => false

/-- As many lines are written as are read and defined, since a line that comes from no input line is
a definition.
-/
theorem Segments.length_outputLines (segments : List Segment)
    : (outputLines segments).length
      = (source segments).length + (outputLines segments).countP OutputLine.isDefinition := by
  have other : (fun line : OutputLine => decide ¬line.source?.isSome = true)
      = OutputLine.isDefinition := by
    funext line
    cases line <;> rfl
  rw [← source_outputLines segments, List.length_filterMap_eq_countP, ← other]
  exact List.length_eq_countP_add_countP fun line : OutputLine => line.source?.isSome

-----------------------------------------------------------------------------------------
-- The framing of a replacement
-----------------------------------------------------------------------------------------

namespace Replacement

variable {table : Rom.Table} {text : String} {segments : List Segment}

/-- The lines of a replacement are those written, with their references resolved. -/
theorem linesOf_frame_output (options : Options)
    (success : Scan.segments table (linesOf (frame text.toList)) = .ok segments)
    : linesOf (frame ((ofSegments options.comment segments).text (frame text.toList)).toList)
      = (Segments.outputLines segments).map fun line =>
          Reference.resolve options.comment (Segments.resolution segments)
            (line.text options.comment) := by
  rw [frame_output options success, linesOf_map_toList, lines_ofSegments,
    ← Segments.text_outputLines, List.map_map]
  rfl

/-- The line breaks of a replacement are line feeds already. -/
theorem unifyBreaks_output (options : Options)
    (success : Scan.segments table (linesOf (frame text.toList)) = .ok segments)
    : let out := (ofSegments options.comment segments).text (frame text.toList)
      unifyBreaks out.toList = out.toList := by
  intro out
  have whole := text_frame out.toList
  rw [frame_output options success] at whole
  rw [← whole]
  simp [out, Replacement.text]

/-- A replacement is framed like its text, apart from the definitions. -/
theorem framedLike_output (options : Options)
    (success : Scan.segments table (linesOf (frame text.toList)) = .ok segments)
    : FramedLike text.toList ((Segments.outputLines segments).countP OutputLine.isDefinition)
        ((ofSegments options.comment segments).text (frame text.toList)).toList := by
  refine framedLike_of_frame (unifyBreaks_output options success) ?_ ?_ ?_
  · rw [frame_output options success]
  · have written := congrArg List.length (linesOf_frame_output options success)
    have read := congrArg List.length (Scan.source_segments success)
    rw [List.length_map, Segments.length_outputLines, read] at written
    simpa [linesOf] using written
  · intro empty
    rw [empty] at success
    have none : Scan.segments table (linesOf (frame [])) = .ok [] := rfl
    rw [← Except.ok.inj (none.symm.trans success)]
    rfl

/-- Nothing is counted as resolved exactly if no label is. -/
theorem totalResolved_eq_zero_iff (mark : String) (segments : List Segment)
    : (ofSegments mark segments).stats.totalResolved = 0
      ↔ (ofSegments mark segments).resolution = [] := by
  have labels : (ofSegments mark segments).resolution = Segments.resolution segments := rfl
  rw [totalResolved_ofSegments, labels, resolution_eq_nil_iff, Int.natCast_eq_zero,
    List.countP_eq_zero]
  simp

end Replacement

-----------------------------------------------------------------------------------------
-- Texts with line breaks of any kind
-----------------------------------------------------------------------------------------

namespace Replacer

/-- Texts that differ in the kind of their line breaks only are replaced alike. -/
theorem replace_unifyBreaks (replacer : Replacer) (text : List Char)
    : replacer.replace (String.ofList (unifyBreaks text))
      = replacer.replace (String.ofList text) := by
  simp only [replace, Replacement.ofText_unifyBreaks]

theorem replace_eq_ok {replacer : Replacer} {text out : String}
    (success : (replacer.replace text).1 = .ok out)
    : ∃ replacement,
        Replacement.ofText replacer.table replacer.options text = .ok (out, replacement)
        ∧ (replacer.replace text).2.resolution = replacement.resolution := by
  simp only [replace] at success ⊢
  cases replaced : Replacement.ofText replacer.table replacer.options text with
  | error fault => simp [replaced] at success
  | ok pair =>
      obtain ⟨own, replacement⟩ := pair
      simp only [replaced, Except.ok.injEq] at success ⊢
      exact ⟨replacement, by rw [success], rfl⟩

/-- The kind of line breaks does not matter to a replacer, which writes line feeds only, and a text
that it writes is framed like the one that it was given.
-/
structure KeepsFraming (replacer : Replacer) : Prop where
  /-- Line breaks may be replaced first: the outcome and the replacer after it are the same. -/
  normalized (text : String)
    : replacer.replace (String.ofList (Text.normalized text.toList)) = replacer.replace text
  /-- The lines written are those read and the definitions, with references resolved. -/
  framed (text out : String) (success : (replacer.replace text).1 = .ok out)
    : ∃ segments,
        Scan.segments replacer.table (Replacement.linesOf (frame text.toList)) = .ok segments
        ∧ FramedLike text.toList ((Segments.outputLines segments).countP OutputLine.isDefinition)
            out.toList
        ∧ Replacement.linesOf (frame out.toList)
          = (Segments.outputLines segments).map fun line =>
              Reference.resolve replacer.options.comment (Segments.resolution segments)
                (line.text replacer.options.comment)
  unresolved (text out : String) (success : (replacer.replace text).1 = .ok out)
    (none : (replacer.replace text).2.resolution = [])
    : out.toList = Text.normalized text.toList
  /-- Each line may end in a break of its own kind, if no two breaks make a pair. -/
  endings (lines : List EndedLine) (unbroken : ∀ line ∈ lines, Unbroken line.chars)
    (apart : lines.IsChain EndedLine.Apart)
    : replacer.replace (String.ofList (endedText lines))
      = replacer.replace (String.ofList (endedText (lines.map EndedLine.withFeed)))

theorem keepsFraming (replacer : Replacer) : replacer.KeepsFraming where
  normalized text := by
    rw [← unifyBreaks_eq_normalized, replace_unifyBreaks, String.ofList_toList]
  framed text out success := by
    obtain ⟨replacement, replaced, -⟩ := replace_eq_ok success
    obtain ⟨segments, scanned, rfl, rfl⟩ := Replacement.ofText_eq_ok_iff.mp replaced
    exact
      ⟨segments, scanned, Replacement.framedLike_output replacer.options scanned,
        Replacement.linesOf_frame_output replacer.options scanned⟩
  unresolved text out success none := by
    obtain ⟨replacement, replaced, resolution⟩ := replace_eq_ok success
    obtain ⟨segments, -, rfl, -⟩ := Replacement.ofText_eq_ok_iff.mp replaced
    rw [resolution, ← Replacement.totalResolved_eq_zero_iff] at none
    rw [← unifyBreaks_eq_normalized]
    exact Replacement.toList_of_unresolved replaced none
  endings lines unbroken apart := by
    rw [← unifyBreaks_endedText unbroken apart, replace_unifyBreaks]

/-- A text with line breaks of all kinds, which defines one label. The empty line stands behind a
carriage return and ends in another one.
-/
theorem keepsFraming_of_mixed_breaks
    : let replacer : Replacer := { table := Rom.Table.ofImage [104, 105, 0] 4096, options := {} }
      let lines : List EndedLine :=
        [⟨"\t.section\t.rodata".toList, .pair⟩, ⟨".LC0:".toList, .carriage⟩,
          ⟨"\t.string\t\"hi\"".toList, .feed⟩, ⟨"\t.text".toList, .carriage⟩, ⟨[], .carriage⟩]
      replacer.replace (String.ofList (endedText lines))
          = replacer.replace (String.ofList (endedText (lines.map EndedLine.withFeed)))
        ∧ ∃ out,
            (replacer.replace (String.ofList (endedText lines))).1 = .ok out
            ∧ FramedLike (endedText lines) 1 out.toList := by
  intro replacer lines
  have keeps := keepsFraming replacer
  have plain : ∀ line ∈ lines, '\n' ∉ line.chars ∧ '\r' ∉ line.chars := by decide
  have apart : lines.IsChain EndedLine.Apart := by decide
  refine ⟨keeps.endings lines (fun line member => ⟨(plain line member).1, (plain line member).2⟩)
    apart, ?_⟩
  have replaced
      : (replacer.replace (String.ofList (endedText lines))).1.toOption.isSome = true := by
    decide +kernel
  have defined
      : (Scan.segments replacer.table
            (Replacement.linesOf (frame (String.ofList (endedText lines)).toList))).toOption.map
          (fun segments => (Segments.outputLines segments).countP OutputLine.isDefinition)
        = some 1 := by
    decide +kernel
  cases done : (replacer.replace (String.ofList (endedText lines))).1 with
  | error fault => simp [done, Except.toOption] at replaced
  | ok out =>
      obtain ⟨segments, scanned, framed, -⟩ := keeps.framed _ out done
      rw [scanned] at defined
      have one : (Segments.outputLines segments).countP OutputLine.isDefinition = 1 :=
        Option.some.inj defined
      rw [one, String.toList_ofList] at framed
      exact ⟨out, rfl, framed⟩

end Replacer

end RomStrings
