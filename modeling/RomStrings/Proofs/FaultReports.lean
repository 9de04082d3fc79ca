import RomStrings.Proofs.Assembly.Payloads
import RomStrings.Proofs.Escape.Grammar
import RomStrings.Proofs.Repetition
import RomStrings.Proofs.Scan.Faults

/-!
Reports of payloads that do not decode. A report names the first such line and the column of the
backslash at which reading stops, and shows a caret below that backslash.
-/

namespace RomStrings

open Text

-----------------------------------------------------------------------------------------
-- The text of a report
-----------------------------------------------------------------------------------------

namespace Diagnostic

/-- The text of a report is taken apart into the lines shown, if none of them is broken. -/
theorem split_text {report : Diagnostic} (plain : ∀ line ∈ report.shownLines, '\n' ∉ line.toList)
    : split '\n' report.text.toList = report.shownLines.map String.toList := by
  have joined : report.text.toList = join '\n' (report.shownLines.map String.toList) := by
    rw [text, String.toList_intercalate]
    rfl
  rw [joined]
  apply split_join
  · simp [shownLines]
  · simpa using plain

/-- A numeral consists of digits. -/
theorem feed_not_mem_numeral (n : Nat) : '\n' ∉ (n : Int).repr.toList := by
  intro member
  change '\n' ∈ n.repr.toList at member
  rw [Nat.toList_repr] at member
  have digit := Nat.isDigit_of_mem_toDigits (by omega) (Nat.le_refl 10) member
  contradiction

theorem feed_not_mem_place {file : String} (plain : '\n' ∉ file.toList) (line column : Nat)
    : '\n' ∉ (Location.text { file, line, column }).toList := by
  simp [Location.text, plain, feed_not_mem_numeral]

/-- A tab is shown as a blank, and no character as a line feed. -/
theorem feed_not_mem_shown {line : List Char} (plain : '\n' ∉ line) : '\n' ∉ line.map showTab := by
  intro member
  obtain ⟨c, known, same⟩ := List.mem_map.mp member
  rw [showTab] at same
  split at same
  · contradiction
  · exact plain (same ▸ known)

section Place

variable {report : Diagnostic} {file line hint : String} {number column : Nat}
variable (place : report.location = some { file, line := number, column }) (known : 0 < column)
variable (source : report.sourceLine = some line)
variable (helps : report.hint = some hint) (nonempty : hint ≠ "")

include place known source helps nonempty

/-- A report with a column and a hint shows four lines. -/
theorem shownLines_of_place
    : report.shownLines
      = [report.headline, "    " ++ String.ofList (line.toList.map showTab),
          String.ofList (List.replicate (column + 3) ' ' ++ ['^']), "hint: " ++ hint] := by
  have positive : (column : Int) > 0 := by omega
  have caret : (4 + (column : Int) - 1).toNat = column + 3 := by omega
  simp only [shownLines, place, source, helps, excerpt, positive, caret, nonempty, if_true,
    if_false]
  rfl

theorem split_text_of_place (filePlain : '\n' ∉ file.toList)
    (messagePlain : '\n' ∉ report.message.toList) (linePlain : '\n' ∉ line.toList)
    (hintPlain : '\n' ∉ hint.toList)
    : split '\n' report.text.toList
      = [report.headline.toList, List.replicate 4 ' ' ++ line.toList.map showTab,
          List.replicate (column + 3) ' ' ++ ['^'], ("hint: " ++ hint).toList] := by
  have shown := shownLines_of_place place known source helps nonempty
  have headline : '\n' ∉ report.headline.toList := by
    have placePlain := feed_not_mem_place filePlain number column
    simp only [Diagnostic.headline, place]
    simp [placePlain, messagePlain]
  rw [split_text, shown]
  · simp
  · rw [shown]
    simp [headline, hintPlain, feed_not_mem_shown linePlain]

end Place

end Diagnostic

namespace Escape

/-- A message shows at most the character behind the backslash. -/
theorem feed_not_mem_message {behind : List Char} {fault : Fault} (plain : '\n' ∉ behind)
    (fails : readToken '\\' behind = .error fault)
    : '\n' ∉ fault.message.toList := by
  have other {c : Char} (member : c ∈ behind) : '\n' ≠ c := fun same => plain (same ▸ member)
  rcases fault_cases fails with ⟨-, rfl⟩ | bad
  · decide +kernel
  · cases bad with
    | @unknown c _ _ _ _ =>
        change '\n' ∉ ("unknown escape sequence '\\" ++ c.toString ++ "'").toList
        simp [other List.mem_cons_self]
    | @noHexDigits mark _ _ _ =>
        change '\n' ∉ ("expected hexadecimal digits after \\" ++ mark.toString).toList
        simp [other List.mem_cons_self]

theorem feed_not_mem_of_decode {payload : List Char} {error : Error} (plain : '\n' ∉ payload)
    (fails : decode payload = .error error)
    : '\n' ∉ error.fault.message.toList := by
  obtain ⟨ts, behind, split, stop, -⟩ := decode_eq_error_iff.mp fails
  refine feed_not_mem_message (fun member => plain ?_) stop
  rw [split.eq_append]
  exact List.mem_append_right _ (List.mem_cons_of_mem _ member)

end Escape

-----------------------------------------------------------------------------------------
-- The place of a fault
-----------------------------------------------------------------------------------------

/-- At the column of the line stands the backslash at which reading its payload stops. -/
def StopsInLine (line : String) (column : Nat) : Prop :=
  ∃ payload front offset,
    Assembly.payload? line = some payload
    ∧ payload.StandsBehind line front
    ∧ Escape.StopsAt payload.escaped offset
    ∧ column = payload.column + offset

theorem stopsInLine_of_fails {line : String} {payload : Assembly.Payload} {error : Escape.Error}
    (known : Assembly.payload? line = some payload)
    (fails : Escape.decode payload.escaped = .error error)
    : StopsInLine line (payload.column + error.offset) := by
  obtain ⟨front, stands⟩ := Assembly.exists_standsBehind known
  have stops := Escape.exists_fault_iff_stopsAt.mp ⟨error.fault, fails⟩
  exact ⟨payload, front, error.offset, known, stands, stops, rfl⟩

/-- The line is cut before the backslash, and that is where the column says. -/
theorem StopsInLine.exists_cut {line : String} {column : Nat} (stops : StopsInLine line column)
    : ∃ before behind,
        line.toList = before ++ '\\' :: behind ∧ column = before.length + 1 := by
  obtain ⟨payload, front, offset, -, stands, stop, rfl⟩ := stops
  obtain ⟨tail, whole⟩ := stands.whole
  obtain ⟨read, behind, shape, rfl, -⟩ := stop
  refine ⟨front ++ '"' :: read, behind ++ '"' :: tail, ?_, ?_⟩
  · simp [whole, shape]
  · rw [stands.column, List.length_append, List.length_cons]
    omega

/-- The report is on the first line that does not decode, and on the backslash in it; and its text
shows the line, and on the next one a caret in the place of that backslash.
-/
structure PointsAtBackslash (table : Rom.Table) (file : String) (lines : List String)
    (report : Diagnostic) (index column : Nat) (line : String)
    : Prop where
  first : Scan.FirstUndecodable table lines index
  place : report.location = some { file, line := index + 1, column }
  known : lines[index]? = some line
  sourceLine : report.sourceLine = some line
  within : 1 ≤ column ∧ column ≤ line.length
  backslash : line.toList[column - 1]? = some '\\'
  stops : StopsInLine line column
  caret
    : ∃ headline shown caret rest,
        split '\n' report.text.toList = headline :: shown :: caret :: rest
        ∧ shown = List.replicate 4 ' ' ++ line.toList.map (fun c => if c = '\t' then ' ' else c)
        ∧ shown[column + 3]? = some '\\'
        ∧ caret = List.replicate (column + 3) ' ' ++ ['^']

theorem feed_not_mem_of_payload {line : String} {payload : Assembly.Payload} {error : Escape.Error}
    (known : Assembly.payload? line = some payload) (plain : '\n' ∉ line.toList)
    (fails : Escape.decode payload.escaped = .error error)
    : '\n' ∉ error.fault.message.toList := by
  obtain ⟨front, stands⟩ := Assembly.exists_standsBehind known
  obtain ⟨tail, whole⟩ := stands.whole
  refine Escape.feed_not_mem_of_decode (fun member => plain ?_) fails
  simp [whole, member]

/-- The column of a report is moved on from the start of the payload to the backslash. -/
theorem location_escape {line : String} {payload : Assembly.Payload}
    (known : Assembly.payload? line = some payload) (number : Nat) (file : String)
    (error : Escape.Error)
    : ((Scan.Error.escape number line payload.column error).diagnostic file).location
      = some { file, line := number, column := (payload.column + error.offset : Nat) } := by
  obtain ⟨front, stands⟩ := Assembly.exists_standsBehind known
  have positive : payload.column ≠ 0 := by
    rw [stands.column]
    omega
  simp [Scan.Error.diagnostic, Escape.Error.diagnostic, Location.atColumn, positive]

theorem Replacer.segments_of_replace {replacer : Replacer} {text : String} {fault : Scan.Error}
    (failed : (replacer.replace text).1 = .error fault)
    : Scan.segments replacer.table (Replacement.linesOf (frame text.toList)) = .error fault := by
  simp only [Replacer.replace, Replacement.ofText_eq_map] at failed
  cases outcome : Scan.segments replacer.table (Replacement.linesOf (frame text.toList)) with
  | ok segments => simp [outcome, Except.map] at failed
  | error own => simpa [outcome, Except.map] using failed

/-- A replacement that fails with a payload is reported at the backslash of the first undecodable
escape, whatever else stands on the line.
-/
theorem Replacer.report_points_at_backslash {replacer : Replacer} {text line : String}
    {number start : Nat} {error : Escape.Error} (plain : '\n' ∉ replacer.options.file.toList)
    (failed : (replacer.replace text).1 = .error (.escape number line start error))
    : ∃ index column,
        PointsAtBackslash replacer.table replacer.options.file
          (Replacement.linesOf (frame text.toList))
          ((Scan.Error.escape number line start error).diagnostic replacer.options.file)
          index column line := by
  obtain ⟨index, payload, first, rfl, known, stores, rfl, fails⟩ :=
    Scan.exists_firstUndecodable (segments_of_replace failed)
  have linePlain : '\n' ∉ line.toList :=
    (Replacement.isLine_linesOf text line (List.mem_of_getElem? known)).feed
  have stops := stopsInLine_of_fails stores fails
  have place := location_escape stores (index + 1) replacer.options.file error
  have message := feed_not_mem_of_payload stores linePlain fails
  generalize payload.column + error.offset = column at stops place
  obtain ⟨before, behind, whole, rfl⟩ := stops.exists_cut
  have shown := Diagnostic.split_text_of_place place (by omega) rfl rfl (by decide +kernel) plain
    message linePlain (by decide +kernel)
  exact ⟨index, before.length + 1, {
    first, place, known, stops
    sourceLine := rfl
    within := by
      have length : line.length = before.length + (behind.length + 1) := by
        rw [← String.length_toList, whole, List.length_append, List.length_cons]
      omega
    backslash := by simp [whole]
    caret := by
      refine ⟨_, _, _, _, shown, rfl, ?_, rfl⟩
      rw [List.getElem?_append_right (by simp)]
      simp [whole, Diagnostic.showTab]
  }⟩

/-- Behind a line that decodes, and behind blanks, tabs and an escape, a caret stands in the place
of the backslash.
-/
theorem Replacer.report_points_at_backslash_behind_tabs
    : let replacer : Replacer :=
        { table := { base := 0, size := 0, chunks := [] }, options := { file := "main.s" } }
      let line := " \t.string  \"a\t\\1\\q\\z\""
      let text := "\t.section\t.rodata\n.LC0:\n\t.ascii\t\"\\\\\"\n" ++ line ++ "\n"
      let fault := Scan.Error.escape 4 line 13 { fault := .unknown 'q', offset := 4 }
      let report := fault.diagnostic "main.s"
      '\n' ∉ replacer.options.file.toList
      ∧ (replacer.replace text).1 = .error fault
      ∧ report.shownLines
        = ["main.s:4:17: error: unknown escape sequence '\\q'",
            "      .string  \"a \\1\\q\\z\"",
            "                    ^",
            "hint: " ++ Escape.hint]
      ∧ ∃ index column,
          PointsAtBackslash replacer.table replacer.options.file
            (Replacement.linesOf (frame text.toList)) report index column line := by
  intro replacer line text fault report
  have plain : '\n' ∉ replacer.options.file.toList := by decide +kernel
  have failed : (replacer.replace text).1 = .error fault := by decide +kernel
  exact ⟨plain, failed, by decide +kernel, Replacer.report_points_at_backslash plain failed⟩

end RomStrings
