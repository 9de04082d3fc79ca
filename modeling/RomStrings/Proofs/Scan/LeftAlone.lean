import RomStrings.Proofs.Scan.Joining
import RomStrings.Proofs.Scan.Sections

/-!
Lines behind an anchor. Until the section is over they are copied, whatever they hold, and the scan
goes on behind them as it would without them.
-/

namespace RomStrings.Scan

open Assembly

variable {table : Rom.Table}

-----------------------------------------------------------------------------------------
-- Lines of a section that is left alone
-----------------------------------------------------------------------------------------

/-- In read-only data an anchor is copied behind what was pending, and from it on the section is
left alone. By cases on the mode: a literal is settled first.
-/
theorem exists_takes_anchor (table : Rom.Table) (number : Nat) (leftAlone : Bool)
    {anchor : String} (anchors : isAnchor anchor = true) {mode : Mode}
    (inside : mode.inRodata = true)
    : ∃ front copy,
        Takes table number leftAlone anchor mode
          { mode := .rodata, leftAlone := true, settled := front ++ [copy] }
        ∧ copy.source = [anchor]
        ∧ copy.isResolved = false := by
  have stays := isSectionSwitch_of_isAnchor anchors
  have read
      : ∃ copy,
          Takes table number leftAlone anchor .rodata
            { mode := .rodata, leftAlone := true, settled := [copy] }
          ∧ copy.source = [anchor]
          ∧ copy.isResolved = false := by
    cases alone : leftAlone with
    | true => exact ⟨_, .leftAlone stays rfl, rfl, rfl⟩
    | false => exact ⟨_, .anchor stays rfl anchors, rfl, rfl⟩
  obtain ⟨copy, takes, source, kept⟩ := read
  cases mode with
  | outside | entering | function _ => contradiction
  | rodata => exact ⟨[], copy, takes, source, kept⟩
  | literal block =>
      have ends : payload? anchor = none := by
        obtain ⟨operands, found⟩ := operandsOf?_of_isAnchor anchors
        exact payload?_of_operandsOf? (by decide) found
      exact ⟨[Segment.ofLiteral table block], copy, .literalEnds ends takes, source, kept⟩

/-- Lines of a section that is left alone are copied, by induction on them. -/
theorem reads_leftAlone (table : Rom.Table) {scanner : Scanner} (rodata : scanner.mode = .rodata)
    (alone : scanner.leftAlone = true) {lines : List String}
    (stay : ∀ line ∈ lines, isSectionSwitch line = false)
    : ∃ last,
        Reads table scanner lines (lines.map .copied) last
        ∧ last.mode = .rodata
        ∧ last.leftAlone = true := by
  induction lines generalizing scanner with
  | nil => exact ⟨scanner, .nil, rodata, alone⟩
  | cons line rest ih =>
      obtain ⟨stays, others⟩ := List.forall_mem_cons.mp stay
      let taken : Taken := { mode := .rodata, leftAlone := true, settled := [.copied line] }
      have takes
          : Takes table (scanner.linesRead + 1) scanner.leftAlone line scanner.mode taken := by
        rw [rodata]
        exact .leftAlone stays alone
      obtain ⟨last, run, stands⟩ := @ih (taken.step scanner).after rfl rfl others
      exact ⟨last, .cons takes.feed run, stands⟩

-----------------------------------------------------------------------------------------
-- Lines inserted behind an anchor
-----------------------------------------------------------------------------------------

/-- The segments of an input, and those of the input with more lines behind the anchor. -/
structure Inserts (mark : String) (before : List String) (anchor : String)
    (inserted : List String) (without whole : List Segment)
    : Prop where
  /-- The lines are copied right behind the copy of the anchor, and nothing else is written. -/
  lines
    : ∃ front later,
        Segments.source front = before
        ∧ front <+: without
        ∧ front <+: whole
        ∧ Segments.output mark without = Segments.output mark front ++ anchor :: later
        ∧ Segments.output mark whole
          = Segments.output mark front ++ anchor :: (inserted ++ later)
  resolution : Segments.resolution whole = Segments.resolution without
  stats : Segments.stats whole = Segments.stats without

/-- The outcome for an input, and the one with more lines behind the anchor. -/
inductive OutcomesInsert (mark : String) (before : List String) (anchor : String)
    (inserted : List String)
    : Except Error (List Segment) → Except Error (List Segment) → Prop
  | ok {without whole} (inserts : Inserts mark before anchor inserted without whole)
    : OutcomesInsert mark before anchor inserted (.ok without) (.ok whole)
  | error {fault}
    : OutcomesInsert mark before anchor inserted (.error fault)
        (.error (fault.behind inserted.length))

/-- Copies between the segments before them and those behind them, which are settled alike. -/
theorem inserts_of_alike (mark : String) {before : List String} {anchor : String}
    (inserted : List String) {front later own : List Segment} {copy : Segment}
    (source : Segments.source front = before) (copied : copy.source = [anchor])
    (kept : copy.isResolved = false)
    (alike : List.Forall₂ (Segment.Alike table table) later own)
    : Inserts mark before anchor inserted (front ++ copy :: later)
        (front ++ copy :: (inserted.map .copied ++ own)) := by
  obtain ⟨output, resolution, stats⟩ := scanned_of_alike alike mark
  have written : copy.output mark = [anchor] := (output_of_not_resolved kept mark).trans copied
  refine { lines := ?_, resolution := ?_, stats := ?_ }
  · refine ⟨front, Segments.output mark later, source, ⟨_, rfl⟩, ⟨_, rfl⟩, ?_, ?_⟩
    · simp [written]
    · simp [written, output, output_map_copied]
  · simp only [Segments.resolution, List.filterMap_append, List.filterMap_cons,
      resolutions_map_copied, resolution, List.nil_append]
  · simp only [Segments.stats_append, Segments.stats_cons, stats_map_copied, stats, Stats.zero_add]

theorem outcomesInsert_of_alike (mark : String) {before : List String} {anchor : String}
    {inserted : List String} {front : List Segment} {copy : Segment}
    {outcome other : Except Error (List Segment)} (source : Segments.source front = before)
    (copied : copy.source = [anchor]) (kept : copy.isResolved = false)
    (alike : OutcomesAlike table table inserted.length outcome other)
    : OutcomesInsert mark before anchor inserted (outcome.map (front ++ [copy] ++ ·))
        (other.map (front ++ [copy] ++ inserted.map .copied ++ ·)) := by
  cases alike with
  | error => exact .error
  | ok alike =>
      have inserts := inserts_of_alike mark inserted source copied kept alike
      simpa [Except.map] using OutcomesInsert.ok inserts

/-- Lines behind an anchor go to the output as they are, and the rest of the input comes to the same
as without them: the section is left alone, so the scan stands behind them as it stands before them.
-/
theorem scan_past_anchor {before inserted : List String} {anchor : String} (options : Options)
    (clean : (history table before).course.fault = none)
    (inside : (history table before).last.mode.inRodata = true)
    (anchors : isAnchor anchor = true)
    (stay : ∀ line ∈ inserted, isSectionSwitch line = false) (after : List String)
    : OutcomesInsert options.comment before anchor inserted
        (Scan.segments table (before ++ anchor :: after))
        (Scan.segments table (before ++ anchor :: (inserted ++ after))) := by
  obtain ⟨settled, middle, run⟩ : ∃ settled last, Reads table {} before settled last :=
    reads_of_course clean
  obtain ⟨-, -, stand⟩ := run.course
  have stand : (history table before).last = middle := stand
  rw [stand] at inside
  obtain ⟨front, copy, takes, copied, kept⟩ :=
    exists_takes_anchor table (middle.linesRead + 1) middle.leftAlone anchors inside
  let step : Step :=
    Taken.step { mode := .rodata, leftAlone := true, settled := front ++ [copy] } middle
  have fed : middle.feed table anchor = .ok step := takes.feed
  have rodata : step.after.mode = .rodata := rfl
  obtain ⟨last, skipped, still, alone⟩ := reads_leftAlone table rodata rfl stay
  have source : Segments.source (settled ++ front) = before := by
    have lines := takes.source
    rw [source_append, source_cons, copied] at lines
    have pending : Segments.source front = middle.mode.pending := by
      simpa [Mode.pending] using lines
    rw [source_append, pending]
    exact run.source
  -- Both scans take the input up to the anchor; only the second one takes the lines behind it.
  have past := run.append (.cons fed .nil)
  have without := past.finish_append "" after
  have whole := (past.append skipped).finish_append "" after
  rw [← segments_eq_finish, List.append_assoc, List.singleton_append] at without
  rw [← segments_eq_finish, List.append_assoc, List.append_assoc, List.singleton_append] at whole
  have alike (latest other : String)
      : OutcomesAlike table table inserted.length (step.after.finish table latest after)
          (last.finish table other after) := by
    refine finish_alike { stand := ?_, linesRead := skipped.linesRead } (.inr rfl) after
    rw [still, alone]
    exact .rodata
  have joined : settled ++ (step.settled ++ []) = settled ++ front ++ [copy] := by simp [step, Taken.step]
  rw [without, whole, joined]
  exact outcomesInsert_of_alike options.comment source copied kept (alike _ _)

/-- A literal that is open at the anchor is taken from ROM, and so is one of the next section, but
not the one behind the anchor; nor is the payload there read, which has an unknown escape.
-/
theorem scan_past_anchor_and_known_string
    : let table := Rom.Table.ofImage [104, 105, 0] 4096
      let before := ["\t.section\t.rodata", ".LC0:", "\t.string\t\"hi\""]
      let anchor := "\t.set\t.LANCHOR0,. + 0"
      let inserted := [".LC1:", "\t.string\t\"hi\"", "\t.set\t.LANCHOR1,. + 0", "\t.ascii\t\"\\q\""]
      let after := ["\t.section\t.rodata", ".LC2:", "\t.string\t\"i\"", "\t.text"]
      (history table before).course.fault = none
      ∧ (history table before).last.mode.inRodata = true
      ∧ isAnchor anchor = true
      ∧ (∀ line ∈ inserted, isSectionSwitch line = false)
      ∧ (Scan.segments table (before ++ anchor :: (inserted ++ after))).toOption.map
          Segments.resolution
        = some [(".LC0", 4096), (".LC2", 4097)]
      ∧ OutcomesInsert "@" before anchor inserted
          (Scan.segments table (before ++ anchor :: after))
          (Scan.segments table (before ++ anchor :: (inserted ++ after))) := by
  intro table before anchor inserted after
  have clean : (history table before).course.fault = none := by decide +kernel
  have inside : (history table before).last.mode.inRodata = true := by decide +kernel
  have anchors : isAnchor anchor = true := by decide +kernel
  have stay : ∀ line ∈ inserted, isSectionSwitch line = false := by decide +kernel
  exact ⟨clean, inside, anchors, stay, by decide +kernel,
    scan_past_anchor {} clean inside anchors stay after⟩

end RomStrings.Scan
