import RomStrings.Proofs.FailedJobs

/-!
Jobs that are done. What is written is what replaces the text that the assembly file holds byte by
byte: that line breaks are unified when the file is read adds nothing, since they are unified again
when the text is taken apart into lines.
-/

namespace RomStrings

open Text

-----------------------------------------------------------------------------------------
-- Replacing text with mixed line breaks
-----------------------------------------------------------------------------------------

namespace Replacement

/-- What replaces a text does not depend on its line breaks. -/
theorem ofText_unifyBreaks (table : Rom.Table) (options : Options) (text : List Char)
    : ofText table options (String.ofList (unifyBreaks text))
      = ofText table options (String.ofList text) := by
  simp only [ofText, String.toList_ofList, frame_unifyBreaks]

/-- Counts of resolved blocks are not changed by the pass over references. -/
theorem totalResolved_ofSegments (mark : String) (segments : List Segment)
    : (ofSegments mark segments).stats.totalResolved = segments.countP Segment.isResolved :=
  Scan.totalResolved_segments segments

/-- A text in which nothing is resolved only has its line breaks unified. -/
theorem toList_of_unresolved {table : Rom.Table} {options : Options} {text out : String}
    {replacement : Replacement}
    (replaced : ofText table options text = .ok (out, replacement))
    (none : replacement.stats.totalResolved = 0)
    : out.toList = unifyBreaks text.toList := by
  obtain ⟨segments, success, rfl, rfl⟩ := ofText_eq_ok_iff.mp replaced
  have unresolved : ∀ segment ∈ segments, segment.isResolved = false := by
    rw [totalResolved_ofSegments, Int.natCast_eq_zero, List.countP_eq_zero] at none
    simpa using none
  have same : (linesOf (frame text.toList)).map String.toList = (frame text.toList).lines := by
    simp [linesOf, Function.comp_def]
  rw [Replacement.text, String.toList_ofList, lines_ofSegments_of_unresolved unresolved,
    Scan.source_segments success, same, text_frame]

/-- Where nothing is resolved, the bytes written are those read, with their line breaks unified. -/
theorem eq_unifyBytes_of_unresolved {table : Rom.Table} {options : Options} {out : String}
    {replacement : Replacement} {data bytes : Bytes}
    (replaced : ofText table options (String.ofList (latin1Text data)) = .ok (out, replacement))
    (none : replacement.stats.totalResolved = 0) (formed : latin1Bytes out.toList = .ok bytes)
    : bytes = unifyBytes data := by
  have same := toList_of_unresolved replaced none
  rw [String.toList_ofList, ← latin1Text_unifyBytes] at same
  rw [same, latin1Bytes_latin1Text] at formed
  exact (Except.ok.inj formed).symm

end Replacement

-----------------------------------------------------------------------------------------
-- Reading what was written
-----------------------------------------------------------------------------------------

namespace FileStore

variable {store : FileStore} {place : Place}

/-- Files stay where they are, by induction on them. -/
theorem exists_mem_putFile {files : List (Place × Bytes)} {file : Place × Bytes}
    (member : file ∈ files) (place : Place) (data : Bytes)
    : ∃ own, (file.1, own) ∈ putFile place data files := by
  induction files with
  | nil => cases member
  | cons first rest ih =>
      obtain ⟨other, old⟩ := first
      simp only [putFile]
      split
      next same =>
        rcases List.mem_cons.mp member with rfl | later
        · exact ⟨data, by simp [same]⟩
        · exact ⟨file.2, List.mem_cons_of_mem _ later⟩
      next =>
        rcases List.mem_cons.mp member with rfl | later
        · exact ⟨old, List.mem_cons_self⟩
        · obtain ⟨own, known⟩ := ih later
          exact ⟨own, List.mem_cons_of_mem _ known⟩

/-- A folder stays one when a file is put in another place. -/
theorem entry?_put_of_folder {folder : Place} (found : store.entry? folder = some .folder)
    (apart : folder ≠ place) (data : Bytes)
    : entry? (store.put place data) folder = some .folder := by
  have lookup := lookup_put store place folder data
  rw [if_neg apart] at lookup
  unfold entry? at found ⊢
  rw [lookup]
  cases held : store.files.lookup folder with
  | some old =>
      rw [held] at found
      cases found
  | none =>
      have before : store.isFolder folder = true := by
        simpa [held] using found
      have after : (store.put place data).isFolder folder = true := by
        simp only [isFolder, put, Bool.or_eq_true, List.any_eq_true] at before ⊢
        rcases before with before | ⟨file, member, inside⟩
        · exact .inl before
        · obtain ⟨own, known⟩ := exists_mem_putFile member place data
          exact .inr ⟨_, known, inside⟩
      simp [after]

/-- A component that could be followed still can be when a file is put where no folder is. -/
theorem step_put (notFolder : store.entry? place ≠ some .folder) (data : Bytes)
    {start next : Place} {part : String} (leads : store.step start part = .ok next)
    : (store.put place data).step start part = .ok next := by
  rw [step] at leads ⊢
  cases found : store.entry? start with
  | none =>
      rw [found] at leads
      cases leads
  | some entry =>
      rw [found] at leads
      cases entry with
      | file _ => cases leads
      | folder =>
          have apart : start ≠ place := fun same => notFolder (same ▸ found)
          rw [entry?_put_of_folder found apart data]
          exact leads

/-- A path leads to the same place when a file is put where no folder is, by induction on its
components.
-/
theorem foldlM_step_put (notFolder : store.entry? place ≠ some .folder) (data : Bytes)
    {start final : Place} {parts : List String}
    (leads : parts.foldlM store.step start = .ok final)
    : parts.foldlM (store.put place data).step start = .ok final := by
  induction parts generalizing start with
  | nil => exact leads
  | cons part rest ih =>
      rw [List.foldlM_cons] at leads ⊢
      cases first : store.step start part with
      | error fault =>
          rw [first] at leads
          cases leads
      | ok next =>
          rw [first] at leads
          rw [step_put notFolder data first]
          exact ih leads

theorem target_eq_ok_iff {path : Path}
    : store.target path = .ok place
      ↔ store.locate path = .ok place ∧ store.entry? place ≠ some .folder := by
  rw [target]
  cases store.locate path with
  | error fault => simp
  | ok found =>
      simp only [Except.ok.injEq]
      split
      next folder =>
        constructor
        · intro fails
          cases fails
        · rintro ⟨rfl, notFolder⟩
          exact absurd folder notFolder
      next notFolder =>
        constructor
        · intro same
          cases same
          exact ⟨rfl, notFolder⟩
        · intro given
          rw [given.1]

/-- What is put where a path leads is read from it. -/
theorem read_put {path : Path} (target : store.target path = .ok place) (data : Bytes)
    : (store.put place data).read path = .ok data := by
  obtain ⟨leads, notFolder⟩ := target_eq_ok_iff.mp target
  have again : (store.put place data).locate path = .ok place := by
    rw [locate] at leads ⊢
    split at leads
    next => cases leads
    next named =>
      rw [if_neg named]
      split at leads
      next => cases leads
      next short =>
        rw [if_neg short]
        exact foldlM_step_put notFolder data leads
  have held : entry? (store.put place data) place = some (.file data) := by
    unfold entry?
    rw [lookup_put, if_pos rfl]
  rw [read, again]
  simp only [held]

end FileStore

-----------------------------------------------------------------------------------------
-- Jobs that are done
-----------------------------------------------------------------------------------------

namespace FileJob

variable {job : FileJob} {store : FileStore} {stats : Stats}

/-- The files behind a job that is done: the output, at its place, holds the bytes. -/
structure FilesAfterDone (job : FileJob) (store : FileStore) (place : Place) (bytes : Bytes)
    : Prop where
  target : store.target job.target = .ok place
  /-- The output's path leads to the bytes. -/
  held : (job.run store).store.read job.target = .ok bytes
  placed : (job.run store).store.files.lookup place = some bytes
  /-- All other files keep their contents. -/
  others
    : ∀ other,
        other ≠ place
        → (job.run store).store.files.lookup other = store.files.lookup other
  working : (job.run store).store.working = store.working
  folders : (job.run store).store.folders = store.folders

theorem filesAfterDone_of_put {place : Place} {bytes : Bytes}
    (target : store.target job.target = .ok place)
    (after : (job.run store).store = store.put place bytes)
    : job.FilesAfterDone store place bytes where
  target
  held := by rw [after, FileStore.read_put target]
  placed := by rw [after, FileStore.lookup_put, if_pos rfl]
  others := by
    intro other apart
    rw [after, FileStore.lookup_put, if_neg apart]
  working := by rw [after]; rfl
  folders := by rw [after]; rfl

/-- A job that is done has written what replaces the text of its assembly file, as bytes, and counts
what was replaced. The text is that of the bytes read, one character for each. If nothing is
resolved, only line breaks are written in another way.
-/
theorem done_job_writes_replacement (done : (job.run store).result = .ok stats)
    : ∃ image base data options out replacement place bytes,
        job.Inputs store image base data options
        ∧ Replacement.ofText (Rom.Table.ofImage image base) options
            (String.ofList (latin1Text data)) = .ok (out, replacement)
        ∧ replacement.stats = stats
        ∧ latin1Bytes out.toList = .ok bytes
        ∧ latin1Text bytes = out.toList
        ∧ job.FilesAfterDone store place bytes
        ∧ (stats.totalResolved = 0 → bytes = unifyBytes data) := by
  have ends := ends_run job store
  rw [done] at ends
  generalize after : (job.run store).store = files at ends
  cases ends with
  | @written out replacement place bytes ready target formed =>
      obtain ⟨image, base, data, options, inputs, replaced⟩ := exists_replaced ready
      rw [fileText, Replacement.ofText_unifyBreaks] at replaced
      exact ⟨image, base, data, options, out, replacement, place, bytes, inputs, replaced, rfl,
        formed, latin1Text_of_latin1Bytes formed, filesAfterDone_of_put target after,
        fun none => Replacement.eq_unifyBytes_of_unresolved replaced none formed⟩

/-- Line breaks of all three forms, a byte that breaks no line, and an output of its own. -/
theorem done_job_writes_replacement_of_mixed_breaks
    : let data : Bytes := [97, 13, 10, 133, 13, 13, 10, 98, 10, 255, 13]
      let store : FileStore := { files := [(["rom.bin"], [72, 0]), (["main.s"], data)] }
      let job : FileJob :=
        { base := 4096
          rom := Path.ofString "rom.bin"
          assembly := Path.ofString "main.s"
          output := some (Path.ofString "out.s") }
      (job.run store).result = .ok {}
      ∧ ∃ place bytes,
          job.FilesAfterDone store place bytes
          ∧ bytes = [97, 10, 133, 10, 10, 98, 10, 255, 10] := by
  intro data store job
  have done : (job.run store).result = .ok {} := by decide +kernel
  obtain ⟨image, base, own, options, out, replacement, place, bytes, inputs, -, -, -, -, files,
    unresolved⟩ := done_job_writes_replacement done
  have read : store.read job.assembly = .ok data := by decide +kernel
  have same := inputs.assembly
  rw [read] at same
  cases same
  refine ⟨done, place, bytes, files, ?_⟩
  rw [unresolved rfl]
  decide +kernel

end FileJob

end RomStrings
