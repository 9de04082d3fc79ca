import RomStrings.Proofs.Scan.Outcome

/-!
Scans that fail. A scan ends at the first line that is read into bytes and does not decode, or
behind all lines with a block still open.
-/

namespace RomStrings.Scan

open Assembly

variable {table : Rom.Table}

/-- A run comes to one scanner, since this is computed from the lines. -/
theorem Reads.unique {scanner last other : Scanner} {lines : List String}
    {settled others : List Segment} (run : Reads table scanner lines settled last)
    (again : Reads table scanner lines others other)
    : other = last := by
  obtain ⟨-, -, stand⟩ := run.course
  obtain ⟨-, -, same⟩ := again.course
  rw [← same, stand]

/-- Where a scan may fail that goes on with the lines, behind the latest line before them. -/
inductive Fails (table : Rom.Table) (scanner : Scanner) (latest : String) (lines : List String)
    : Error → Prop
  | line {before line after settled middle fault}
    (whole : lines = before ++ line :: after)
    (run : Reads table scanner before settled middle)
    (fails : middle.feed table line = .error fault)
    : Fails table scanner latest lines fault
  | atEnd {settled last block}
    (run : Reads table scanner lines settled last)
    (opened : last.mode.openBlock? = some block)
    : Fails table scanner latest lines
        (.truncated last.linesRead (lines.getLastD latest) block)

/-- A scan that fails does so at a line or at the end, by induction on the lines. -/
theorem fails_of_finish {scanner : Scanner} {latest : String} {lines : List String} {fault : Error}
    (failed : scanner.finish table latest lines = .error fault)
    : Fails table scanner latest lines fault := by
  induction lines generalizing scanner latest with
  | nil =>
      simp only [Scanner.finish] at failed
      split at failed
      next block opened =>
        cases failed
        exact .atEnd .nil opened
      next => cases failed
  | cons line rest ih =>
      simp only [Scanner.finish] at failed
      cases fed : scanner.feed table line with
      | error own =>
          rw [fed] at failed
          cases failed
          exact .line rfl .nil fed
      | ok step =>
          rw [fed] at failed
          cases later : step.after.finish table line rest with
          | ok segments => simp [later, Except.map] at failed
          | error own =>
              simp only [later, Except.map, Except.error.injEq] at failed
              subst failed
              cases ih later with
              | line whole run fails => exact .line (by rw [whole]; rfl) (.cons fed run) fails
              | atEnd run opened =>
                  rw [← List.getLastD_cons]
                  exact .atEnd (.cons fed run) opened

-----------------------------------------------------------------------------------------
-- The first payload that does not decode
-----------------------------------------------------------------------------------------

theorem bytes_eq_error_iff {payload : Payload} {error : Escape.Error}
    : payload.bytes = .error error ↔ Escape.decode payload.escaped = .error error := by
  rw [Payload.bytes]
  cases Escape.decode payload.escaped <;> simp [Except.map]

/-- The fault of a payload is that of its text, where the text starts. -/
theorem payloadFault_iff {number : Nat} {line : String} {fault : Error}
    : PayloadFault number line fault
      ↔ ∃ payload error,
          payload? line = some payload
          ∧ Escape.decode payload.escaped = .error error
          ∧ fault = .escape number line payload.column error := by
  constructor
  · rintro ⟨payload, known, fails⟩
    rw [payloadBytes] at fails
    cases decoded : payload.bytes with
    | ok bytes => simp [decoded] at fails
    | error error =>
        simp only [decoded, Except.error.injEq] at fails
        exact ⟨payload, error, known, bytes_eq_error_iff.mp decoded, fails.symm⟩
  · rintro ⟨payload, error, known, fails, rfl⟩
    exact ⟨payload, known, by rw [payloadBytes, bytes_eq_error_iff.mpr fails]⟩

/-- The line at the index is read into the block that is open there, and it does not decode. -/
def Undecodable (table : Rom.Table) (lines : List String) (index : Nat) : Prop :=
  ∃ settled middle line payload error,
    Reads table {} (lines.take index) settled middle
    ∧ middle.mode.decodes = true
    ∧ lines[index]? = some line
    ∧ payload? line = some payload
    ∧ Escape.decode payload.escaped = .error error

/-- No line is taken that does not decode. -/
theorem not_undecodable_of_reads {before after : List String} {settled : List Segment}
    {middle : Scanner} (run : Reads table {} before settled middle) {index : Nat}
    (inside : index < before.length)
    : ¬Undecodable table (before ++ after) index := by
  rintro ⟨others, other, line, payload, error, again, opened, known, stores, fails⟩
  rw [List.take_append_of_le_length (Nat.le_of_lt inside)] at again
  rw [List.getElem?_append_left inside] at known
  have whole : before = before.take index ++ line :: before.drop (index + 1) := by
    obtain ⟨_, rfl⟩ := List.getElem?_eq_some_iff.mp known
    rw [← List.drop_eq_getElem_cons, List.take_append_drop]
  rw [whole] at run
  obtain ⟨own, first, rest, -, front, behind⟩ := run.split
  obtain rfl := front.unique again
  have fault : other.feed table line
      = .error (.escape (other.linesRead + 1) line payload.column error) :=
    feed_eq_error_iff.mpr ⟨opened, payloadFault_iff.mpr ⟨payload, error, stores, fails, rfl⟩⟩
  cases behind with
  | cons fed _ =>
      rw [fed] at fault
      cases fault

/-- At the index stands the first line that is read into an open block and does not decode. -/
structure FirstUndecodable (table : Rom.Table) (lines : List String) (index : Nat) : Prop where
  fails : Undecodable table lines index
  first : ∀ earlier < index, ¬Undecodable table lines earlier

/-- A scan that fails with a payload fails with the first one that does not decode. -/
theorem exists_firstUndecodable {lines : List String} {number start : Nat} {line : String}
    {error : Escape.Error}
    (failed : Scan.segments table lines = .error (.escape number line start error))
    : ∃ index payload,
        FirstUndecodable table lines index
        ∧ number = index + 1
        ∧ lines[index]? = some line
        ∧ payload? line = some payload
        ∧ start = payload.column
        ∧ Escape.decode payload.escaped = .error error := by
  rw [segments_eq_finish] at failed
  cases fails_of_finish failed with
  | @line before own after settled middle _ whole run fails =>
      obtain ⟨opened, fault⟩ := feed_eq_error_iff.mp fails
      obtain ⟨payload, _, stores, undecodable, same⟩ := payloadFault_iff.mp fault
      cases same
      have known : lines[before.length]? = some line := by simp [whole]
      refine ⟨before.length, payload, ⟨?_, ?_⟩, ?_, known, stores, rfl, undecodable⟩
      · have front : lines.take before.length = before := by simp [whole]
        exact ⟨settled, middle, line, payload, error, front.symm ▸ run, opened, known, stores,
          undecodable⟩
      · rw [whole]
        exact fun _ earlier => not_undecodable_of_reads run earlier
      · rw [run.linesRead, Nat.zero_add]

/-- All lines of an input are taken, or a payload does not decode. -/
theorem reads_or_escape (table : Rom.Table) (lines : List String)
    : (∃ settled last, Reads table {} lines settled last)
      ∨ ∃ number line column error,
          Scan.segments table lines = .error (.escape number line column error) := by
  cases outcome : Scan.segments table lines with
  | ok segments =>
      obtain ⟨last, run, -⟩ := segments_eq_ok_iff.mp outcome
      exact .inl ⟨segments, last, run⟩
  | error fault =>
      rw [segments_eq_finish] at outcome
      cases fails_of_finish outcome with
      | line _ _ fails =>
          obtain ⟨-, faulty⟩ := feed_eq_error_iff.mp fails
          obtain ⟨payload, error, -, -, rfl⟩ := payloadFault_iff.mp faulty
          exact .inr ⟨_, _, _, _, rfl⟩
      | @atEnd settled last _ run _ => exact .inl ⟨settled, last, run⟩

end RomStrings.Scan
