import RomStrings.FileJob
import RomStrings.Proofs.Passes
import RomStrings.Proofs.Text.Latin1

/-!
Jobs that fail. A fault of the input shows before anything is written, so all files stay as they
were. Text without a form in bytes only shows when the output is emptied already, and what makes
such text is the mark.
-/

namespace RomStrings

open Text

-----------------------------------------------------------------------------------------
-- Text without bytes
-----------------------------------------------------------------------------------------

/-- What replaces a narrow text cannot be turned into bytes exactly if something is resolved and the
mark is not narrow. All other characters come from the text, and an annotation shows the mark.
-/
theorem unwritable_iff {table : Rom.Table} {options : Options} {text out : String}
    {replacement : Replacement} (narrow : Narrow text.toList)
    (success : Replacement.ofText table options text = .ok (out, replacement))
    : (∃ wide, latin1Bytes out.toList = .error wide)
      ↔ ¬Within isLatin1 options.comment ∧ replacement.resolution ≠ [] := by
  obtain ⟨segments, scanned, rfl, rfl⟩ := Replacement.ofText_eq_ok_iff.mp success
  have input : ∀ line ∈ Replacement.linesOf (frame text.toList), Within isLatin1 line := by
    intro line member c inside
    obtain ⟨own, known, rfl⟩ := List.mem_map.mp member
    exact narrow_frame narrow own known c (by simpa using inside)
  have whole : Narrow ((Replacement.ofSegments options.comment segments).text
        (frame text.toList)).toList
      ↔ ∀ line ∈ Segments.outputLines segments,
          Within isLatin1 (Reference.resolve options.comment (Segments.resolution segments)
            (line.text options.comment)) := by
    rw [Replacement.text, String.toList_ofList, narrow_text_iff,
      Replacement.lines_ofSegments_written, List.map_map]
    exact List.forall_mem_map
  have resolution : (Replacement.ofSegments options.comment segments).resolution
      = Segments.resolution segments :=
    rfl
  rw [exists_latin1Bytes_error_iff, whole, resolution, ← not_iff_not, not_not, not_and_or, not_not,
    not_not]
  constructor
  · intro narrow
    refine or_iff_not_imp_right.mpr fun some => ?_
    obtain ⟨own, written⟩ := Scan.exists_annotated scanned some
    have shown := narrow _ written
    rw [OutputLine.text, Reference.resolve_annotation, Assembly.annotated, within_append,
      within_append] at shown
    exact shown.1.1
  · intro mild line written
    have surround : Within isLatin1 surroundings := by decide +kernel
    exact within_resolve surround mild (within_written surround scanned input mild written)

-----------------------------------------------------------------------------------------
-- Files
-----------------------------------------------------------------------------------------

namespace FileStore

theorem lookup_cons (place other : Place) (data : Bytes) (files : List (Place × Bytes))
    : ((place, data) :: files).lookup other
      = if other = place then some data else files.lookup other := by
  by_cases same : other = place
  · simp [same]
  · have apart : (other == place) = false := by simpa using same
    rw [List.lookup_cons, apart, if_neg same]

/-- Only the file at the place changes, by induction on the files. -/
theorem lookup_put (store : FileStore) (place other : Place) (data : Bytes)
    : (store.put place data).files.lookup other
      = if other = place then some data else store.files.lookup other := by
  simp only [put]
  induction store.files with
  | nil => rw [putFile, lookup_cons]
  | cons file rest ih =>
      obtain ⟨first, old⟩ := file
      simp only [putFile]
      by_cases here : first = place
      · subst here
        simp only [if_true, lookup_cons]
        split <;> rfl
      · simp only [if_neg here, lookup_cons, ih]
        by_cases same : other = first
        · simp [same, here]
        · simp [same]

end FileStore

namespace FileJob

variable {job : FileJob} {store : FileStore}

/-- What a job works on: the image, where it is mapped, the bytes of the assembly file, and the
settings of the run.
-/
structure Inputs (job : FileJob) (store : FileStore) (image : Bytes) (base : Nat) (data : Bytes)
    (options : Options)
    : Prop where
  rom : store.read job.rom = .ok image
  base : job.base = base
  assembly : store.read job.assembly = .ok data
  settings : Options.withComment job.comment job.assembly.text = .ok options

theorem Inputs.comment {image data : Bytes} {base : Nat} {options : Options}
    (inputs : job.Inputs store image base data options)
    : options.comment = job.comment := by
  have settings := inputs.settings
  rw [Options.withComment] at settings
  split at settings
  next =>
    cases settings
    rfl
  next => cases settings

theorem narrow_fileText (data : Bytes) : Narrow (fileText data).toList := by
  rw [fileText, String.toList_ofList]
  exact narrow_unifyBreaks (narrow_latin1Text data)

/-- A table that is loaded is that of the image, mapped at the base. -/
theorem of_loadTable {table : Noted Rom.Table} (loaded : job.loadTable store = .ok table)
    : ∃ image base,
        store.read job.rom = .ok image
        ∧ job.base = (base : Nat)
        ∧ table.value = Rom.Table.ofImage image base := by
  simp only [loadTable] at loaded
  split at loaded
  next => cases loaded
  next =>
    cases read : store.read job.rom with
    | error fault =>
        rw [read] at loaded
        cases loaded
    | ok image =>
        rw [read] at loaded
        cases place : job.base with
        | ofNat base =>
            simp only [place, Rom.Table.load, Except.ok.injEq] at loaded
            exact ⟨image, base, rfl, rfl, by rw [← loaded]⟩
        | negSucc below =>
            rw [place] at loaded
            cases loaded

theorem of_loadAssembly {options : Options} {text : String}
    (loaded : job.loadAssembly store = .ok (options, text))
    : ∃ data,
        store.read job.assembly = .ok data
        ∧ Options.withComment job.comment job.assembly.text = .ok options
        ∧ text = fileText data := by
  simp only [loadAssembly] at loaded
  split at loaded
  next => cases loaded
  next data read =>
    split at loaded
    next => cases loaded
    next settings accepted =>
      cases loaded
      exact ⟨data, read, accepted, rfl⟩

/-- What a job has ready to be written replaces the text of its assembly file. -/
theorem exists_replaced {text : String} {replacement : Replacement}
    (ready : (job.prepare store).value = .ok (text, replacement))
    : ∃ image base data options,
        job.Inputs store image base data options
        ∧ Replacement.ofText (Rom.Table.ofImage image base) options (fileText data)
          = .ok (text, replacement) := by
  simp only [prepare] at ready
  split at ready
  next => cases ready
  next notes table loaded =>
    split at ready
    next => cases ready
    next options input read =>
      obtain ⟨image, base, rom, place, rfl⟩ := of_loadTable loaded
      obtain ⟨data, assembly, settings, rfl⟩ := of_loadAssembly read
      refine ⟨image, base, data, options, ⟨rom, place, assembly, settings⟩, ?_⟩
      simp only [Replacement.ofText, Replacement.ofLines]
      simp only at ready
      split at ready
      next => cases ready
      next own replaced =>
        cases ready
        rw [replaced]
        rfl

/-- How a job ends, with the files behind it: nothing is ready, the output cannot be opened, what is
ready has no form in bytes once the output is emptied, or it is written.
-/
inductive Ends (job : FileJob) (store : FileStore) : FileStore → Except Failure Stats → Prop
  | unready {failure} (fails : (job.prepare store).value = .error failure)
    : Ends job store store (.error failure)
  | unopened {text replacement fault}
    (ready : (job.prepare store).value = .ok (text, replacement))
    (target : store.target job.target = .error fault)
    : Ends job store store (.error (.file job.target fault))
  | emptied {text replacement place wide}
    (ready : (job.prepare store).value = .ok (text, replacement))
    (target : store.target job.target = .ok place)
    (formless : latin1Bytes text.toList = .error wide)
    : Ends job store (store.put place []) (.error (.unwritable wide))
  | written {text replacement place bytes}
    (ready : (job.prepare store).value = .ok (text, replacement))
    (target : store.target job.target = .ok place)
    (formed : latin1Bytes text.toList = .ok bytes)
    : Ends job store (store.put place bytes) (.ok replacement.stats)

theorem ends_run (job : FileJob) (store : FileStore)
    : job.Ends store (job.run store).store (job.run store).result := by
  simp only [run]
  cases ready : (job.prepare store).value with
  | error failure => exact .unready ready
  | ok pair =>
      obtain ⟨text, replacement⟩ := pair
      simp only [write]
      cases target : store.target job.target with
      | error fault => exact .unopened ready target
      | ok place =>
          cases formed : latin1Bytes text.toList with
          | error wide => exact .emptied ready target formed
          | ok bytes => exact .written ready target formed

/-- The job empties the file at the place, and fails: the replaced text is ready and something is
resolved in it, so it shows the mark, which cannot be turned into bytes.
-/
structure Empties (job : FileJob) (store : FileStore) (place : Place) : Prop where
  wide : ¬Within isLatin1 job.comment
  ready
    : ∃ text replacement,
        (job.prepare store).value = .ok (text, replacement) ∧ replacement.resolution ≠ []
  target : store.target job.target = .ok place

/-- The files behind a job that fails. -/
structure FilesAfterFailure (job : FileJob) (store : FileStore) (failure : Failure) : Prop where
  /-- All files keep their contents, unless the job empties one that was not empty. -/
  kept
    : (∀ place, (job.run store).store.files.lookup place = store.files.lookup place)
      ↔ ∀ place, job.Empties store place → store.files.lookup place = some []
  /-- A file that the job empties is left so, and the failure is that the text has no bytes. -/
  emptied
    : ∀ place,
        job.Empties store place
        → (∃ wide, failure = .unwritable wide) ∧ (job.run store).store = store.put place []
  /-- All other files keep their contents in any case. -/
  others
    : ∀ place,
        store.target job.target ≠ .ok place
        → (job.run store).store.files.lookup place = store.files.lookup place

/-- A text that is ready cannot be turned into bytes exactly if it shows a mark that is not narrow.
-/
theorem unwritable_of_ready {text : String} {replacement : Replacement}
    (ready : (job.prepare store).value = .ok (text, replacement))
    : (∃ wide, latin1Bytes text.toList = .error wide)
      ↔ ¬Within isLatin1 job.comment ∧ replacement.resolution ≠ [] := by
  obtain ⟨image, base, data, options, inputs, replaced⟩ := exists_replaced ready
  rw [← inputs.comment]
  exact unwritable_iff (narrow_fileText data) replaced

/-- A job that fails leaves the files as they are, or it empties one. -/
theorem store_of_failed {failure : Failure} (failed : (job.run store).result = .error failure)
    : (job.run store).store = store ∧ (∀ place, ¬job.Empties store place)
      ∨ ∃ place,
          job.Empties store place
          ∧ (∃ wide, failure = .unwritable wide)
          ∧ (job.run store).store = store.put place [] := by
  have ends := ends_run job store
  rw [failed] at ends
  generalize (job.run store).store = after at ends ⊢
  cases ends with
  | unready fails =>
      refine .inl ⟨rfl, fun place empties => ?_⟩
      obtain ⟨text, replacement, ready, -⟩ := empties.ready
      rw [fails] at ready
      cases ready
  | unopened _ target =>
      refine .inl ⟨rfl, fun place empties => ?_⟩
      have found := empties.target
      rw [target] at found
      cases found
  | @emptied text replacement place wide ready target formless =>
      obtain ⟨isWide, some⟩ := (unwritable_of_ready ready).mp ⟨wide, formless⟩
      exact .inr ⟨place, ⟨isWide, ⟨text, replacement, ready, some⟩, target⟩, ⟨wide, rfl⟩, rfl⟩

theorem Empties.unique {place other : Place} (empties : job.Empties store place)
    (empties' : job.Empties store other)
    : other = place := by
  have same := empties'.target
  rw [empties.target] at same
  exact (Except.ok.inj same).symm

/-- A job that fails keeps all files exactly if it empties none that was not empty. What it writes
cannot be turned into bytes only if it shows the mark, and any other failure comes before the
output is opened.
-/
theorem files_after_failure {failure : Failure} (failed : (job.run store).result = .error failure)
    : FilesAfterFailure job store failure := by
  rcases store_of_failed failed with ⟨same, none⟩ | ⟨place, empties, cause, emptied⟩
  · exact {
      kept := by
        rw [same]
        exact iff_of_true (fun _ => rfl) fun place empties => absurd empties (none place)
      emptied := fun place empties => absurd empties (none place)
      others := fun _ _ => by rw [same]
    }
  · exact {
      kept := by
        simp only [emptied, FileStore.lookup_put]
        constructor
        · intro kept other empties'
          rw [empties.unique empties', ← kept place, if_pos rfl]
        · intro empty other
          by_cases here : other = place
          · rw [if_pos here, here, empty place empties]
          · rw [if_neg here]
      emptied := by
        intro other empties'
        rw [empties.unique empties']
        exact ⟨cause, emptied⟩
      others := by
        intro other elsewhere
        have apart : other ≠ place := fun same => elsewhere (same ▸ empties.target)
        rw [emptied, FileStore.lookup_put, if_neg apart]
    }

/-- A job without counts has failed. -/
theorem exists_failure (none : (job.run store).result.toOption = none)
    : ∃ failure, (job.run store).result = .error failure := by
  cases result : (job.run store).result with
  | ok stats => simp [result, Except.toOption] at none
  | error failure => exact ⟨failure, rfl⟩

/-- The usual failure: a payload that does not read. The file stays as it is. -/
theorem files_after_failure_of_bad_escape
    : let source := "\t.section\t.rodata\n.LC0:\n\t.asciz\t\"\\q\"\n"
      let data := source.toList.map fun c => UInt8.ofNat c.toNat
      let store : FileStore := { files := [(["rom.bin"], [72, 0]), (["main.s"], data)] }
      let job : FileJob :=
        { base := 4096, rom := Path.ofString "rom.bin", assembly := Path.ofString "main.s" }
      ∃ failure,
        (job.run store).result = .error failure
        ∧ (job.run store).store = store
        ∧ FilesAfterFailure job store failure := by
  intro source data store job
  have computed : (job.run store).result.toOption = none ∧ (job.run store).store = store := by
    decide +kernel
  obtain ⟨fails, same⟩ := computed
  obtain ⟨failure, failed⟩ := exists_failure fails
  exact ⟨failure, failed, same, files_after_failure failed⟩

/-- A mark without a byte, behind which a line is annotated: the job empties the file, and its text
is lost.
-/
theorem not_files_kept
    : ¬∀ (job : FileJob) (store : FileStore) (failure : Failure),
        (job.run store).result = .error failure
        → ∀ place, (job.run store).store.files.lookup place = store.files.lookup place := by
  intro keeps
  let source := "\t.section\t.rodata\n.LC0:\n\t.asciz\t\"H\"\n\t.text\n"
  let data := source.toList.map fun c => UInt8.ofNat c.toNat
  let store : FileStore := { files := [(["rom.bin"], [72, 0]), (["main.s"], data)] }
  let job : FileJob :=
    { base := 4096
      rom := Path.ofString "rom.bin"
      assembly := Path.ofString "main.s"
      comment := "€" }
  have computed : (job.run store).result.toOption = none
      ∧ (job.run store).store.files.lookup ["main.s"] ≠ store.files.lookup ["main.s"] := by
    decide +kernel
  obtain ⟨fails, changed⟩ := computed
  obtain ⟨failure, failed⟩ := exists_failure fails
  exact changed (keeps job store failure failed ["main.s"])

end FileJob

end RomStrings
