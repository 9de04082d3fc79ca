import RomStrings.Proofs.Scan.Layout

/-!
The scan read off its input. Behind every line, where the scan stands is a matter of the lines so
far, whatever blocks it went through; and so only the literals of a section that is read are ever
taken from ROM.
-/

namespace RomStrings.Scan

open Assembly

/-- The scan is in a section of read-only data. -/
def Mode.inRodata : Mode → Bool
  | .rodata | .literal _ => true
  | .outside | .entering | .function _ => false

/-- The scan stands where the lines so far have it. -/
structure FollowsLines (seen : List String) (scanner : Scanner) : Prop where
  /-- It is in read-only data exactly if the last line that may change the section leads there. -/
  rodata : scanner.mode.inRodata = true ↔ endsInRodata seen = true
  /-- The section is left alone exactly if an anchor stands in it. -/
  leftAlone
    : scanner.mode.inRodata = true → (scanner.leftAlone = true ↔ anchoredSince seen = true)
  /-- A literal is open exactly if the last line but payload lines is a label of a section that is
  read. -/
  literal
    : (∃ block, scanner.mode = .literal block)
      ↔ scanner.mode.inRodata = true
        ∧ scanner.leftAlone = false
        ∧ ∃ line, lastOther? (sinceSwitch seen) = some line ∧ (label? line).isSome = true
  /-- The open literal is made of that label line and the payload lines behind it. -/
  block
    : ∀ block,
        scanner.mode = .literal block
        → lastOther? (sinceSwitch seen) = some block.labelLine
          ∧ label? block.labelLine = some block.label
          ∧ block.payloads.map Prod.fst = payloadsAtEnd (sinceSwitch seen)

theorem openSince?_eq_some_iff {lines payloads : List String} {labelLine : String}
    : openSince? lines = some (labelLine, payloads)
      ↔ lastOther? lines = some labelLine
        ∧ (label? labelLine).isSome = true
        ∧ payloads = payloadsAtEnd lines := by
  simp only [openSince?, Option.map_eq_some_iff, Option.filter_eq_some_iff, Prod.mk.injEq]
  constructor
  · intro given
    obtain ⟨line, ⟨last, labels⟩, rfl, rfl⟩ := given
    exact ⟨last, labels, rfl⟩
  · intro given
    obtain ⟨last, labels, rfl⟩ := given
    exact ⟨labelLine, ⟨last, labels⟩, rfl, rfl⟩

/-- A scan in step with the lines stands where they have it. The region of its mode and the literal
open in it are those of the lines, and both sides say so in their parts.
-/
theorem Stands.followsLines {seen : List String} {scanner : Scanner}
    (stands : Stands seen scanner.mode scanner.leftAlone)
    : FollowsLines seen scanner := by
  obtain ⟨region, opened, read, collected, -⟩ := stands
  have inRodata : scanner.mode.inRodata = endsInRodata seen := by
    cases mode : scanner.mode <;> cases ends : endsInRodata seen <;>
      simp [mode, Mode.region, regionOf, ends] at region ⊢ <;> rfl
  have alone : scanner.mode.inRodata = true → scanner.leftAlone = anchoredSince seen := by
    intro inside
    have ends : endsInRodata seen = true := inRodata ▸ inside
    cases mode : scanner.mode <;> simp [mode, Mode.region, regionOf, ends] at region <;>
      exact region
  have openAt (block : Literal) (mode : scanner.mode = .literal block)
      : openSince? (sinceSwitch seen)
        = some (block.labelLine, block.payloads.map Prod.fst) := by
    simp only [mode, Mode.opened?, openAt?] at opened
    split at opened
    next => exact opened.symm
    next => cases opened
  exact {
    rodata := by rw [inRodata]
    leftAlone := fun inside => by rw [alone inside]
    literal := by
      constructor
      · intro given
        obtain ⟨block, mode⟩ := given
        obtain ⟨last, labels, -⟩ := openSince?_eq_some_iff.mp (openAt block mode)
        exact ⟨by rw [mode]; rfl, read (by rw [mode]; rfl), block.labelLine, last, labels⟩
      · intro given
        obtain ⟨inside, notAlone, line, last, labels⟩ := given
        have ends : endsInRodata seen = true := inRodata ▸ inside
        have anchored : anchoredSince seen = false := alone inside ▸ notAlone
        have found := openSince?_eq_some_iff.mpr ⟨last, labels, rfl⟩
        rw [openAt?, if_pos (regionOf_eq_rodata_iff.mpr ⟨ends, anchored⟩), found] at opened
        cases mode : scanner.mode with
        | literal block => exact ⟨block, rfl⟩
        | outside | rodata | entering | function _ => simp [mode, Mode.opened?] at opened
    block := by
      intro block mode
      obtain ⟨last, -, payloads⟩ := openSince?_eq_some_iff.mp (openAt block mode)
      have own : block.Collected := by simpa [mode, Mode.Collected] using collected
      exact ⟨last, own.labels, payloads⟩
  }

/-- The literal starts behind a section line of read-only data, with no anchor in between. -/
structure StartsInSection (before : List String) (block : Block) : Prop where
  rodata : endsInRodata before = true
  read : anchoredSince before = false
  label : ∃ line payloads, block.lines = line :: payloads ∧ label? line = some block.label

/-- Only in a section that is read do literals resolve, by cases on how the block does. -/
theorem Resolves.of_literal {table : Rom.Table} {region : Region} {block : Block}
    {found : Rom.Match} (resolves : Resolves table region block found)
    (kind : block.kind = .literal)
    : region = .rodata false
      ∧ ∃ line payloads, block.lines = line :: payloads ∧ label? line = some block.label := by
  cases resolves with
  | @literal literal _ collected _ =>
      exact ⟨rfl, literal.labelLine, literal.payloads.map Prod.fst, rfl, collected.labels⟩
  | object _ _ _ => cases kind

/-- A scan follows its lines. Behind every line that it takes, it stands where the lines so far
have it, since one more line keeps it in step. Each literal that it takes from ROM starts in a
section that is read, since the layout has it in the region behind the lines before it.
-/
theorem scan_follows_lines (table : Rom.Table) (lines : List String)
    : (∀ index step,
        (history table lines).course.steps[index]? = some step
        → FollowsLines (lines.take (index + 1)) step.after)
      ∧ ∀ before block found after,
          Scan.segments table lines = .ok (before ++ .resolved block found :: after)
          → block.kind = .literal
          → lines = Segments.source before ++ block.lines ++ Segments.source after
            ∧ StartsInSection (Segments.source before) block := by
  constructor
  · intro index step done
    obtain ⟨line, settled, middle, known, run, fed⟩ := reads_of_step done
    have stands := (stands_start.reads run).takes (feed_eq_ok_iff.mp fed).1
    rw [List.nil_append] at stands
    rw [List.take_add_one, known]
    exact stands.followsLines
  · intro before block found after success kind
    have source := source_segments success
    obtain ⟨region, label⟩ := (resolves_of_segments success).of_literal kind
    obtain ⟨rodata, read⟩ := regionOf_eq_rodata_iff.mp region
    refine ⟨?_, { rodata, read, label }⟩
    rw [← source]
    simp [Segment.source]

/-- Behind a literal and an anchor, the section is left alone. -/
theorem scan_follows_lines_past_anchor
    : let table := Rom.Table.ofImage [104, 105, 0] 4096
      let lines :=
        ["\t.section\t.rodata", ".LC0:", "\t.string\t\"hi\"", "\t.set\t.LANCHOR0,. + 0", ".LC1:"]
      ∃ opened left,
        (history table lines).course.steps[2]? = some opened
        ∧ opened.after.mode.opened? = some (".LC0:", ["\t.string\t\"hi\""])
        ∧ FollowsLines (lines.take 3) opened.after
        ∧ (history table lines).course.steps[4]? = some left
        ∧ left.after = { mode := .rodata, leftAlone := true, linesRead := 5, linesWritten := 6 }
        ∧ FollowsLines (lines.take 5) left.after := by
  intro table lines
  have opens : (history table lines).course.steps[2]?.map (fun step => step.after.mode.opened?)
      = some (some (".LC0:", ["\t.string\t\"hi\""])) := by
    decide +kernel
  have leaves : (history table lines).course.steps[4]?.map Step.after
      = some { mode := .rodata, leftAlone := true, linesRead := 5, linesWritten := 6 } := by
    decide +kernel
  obtain ⟨opened, third, isOpen⟩ := Option.map_eq_some_iff.mp opens
  obtain ⟨left, fifth, isLeft⟩ := Option.map_eq_some_iff.mp leaves
  exact ⟨opened, left, third, isOpen, (scan_follows_lines table lines).1 2 opened third, fifth,
    isLeft, (scan_follows_lines table lines).1 4 left fifth⟩

end RomStrings.Scan
