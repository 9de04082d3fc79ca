import RomStrings.Proofs.Scan.Quiet

/-!
The scan of a scan's output. What is written has the forms of what was read, except that a block
taken from ROM leaves no section line behind. Lines behind such a block may then be read in the
section before it, where a label that was passed over is a literal. Apart from such stray literals a
scan of output resolves nothing.
-/

namespace RomStrings.Scan

open Assembly

variable {table : Rom.Table}

-----------------------------------------------------------------------------------------
-- Stray literals
-----------------------------------------------------------------------------------------

/-- The lines look like a literal: a label and payload lines, and none behind them. -/
structure LooksLiteral (labelLine : String) (payloads : List String) (rest : List Segment)
    : Prop where
  stays : isSectionSwitch labelLine = false
  labels : (label? labelLine).isSome = true
  stores : ∀ line ∈ payloads, isPayload line = true
  ends : ∀ next, (Segments.source rest).head? = some next → payload? next = none

/-- A literal of the lines goes unnoticed: it does not end the input, and ROM does not hold it. -/
def Unnoticed (table : Rom.Table) (payloads : List String) (rest : List Segment) : Prop :=
  rest ≠ [] ∧ ∃ raw, Stores payloads raw ∧ table.matchLiteral raw = none

/-- Lines that are copied outside read-only data, but look like a literal and stand in a section
that is read once they are written, go unnoticed there all the same.
-/
def NoStray (table : Rom.Table) (segments : List Segment) : Prop :=
  ∀ before labelLine payloads rest,
    segments = before ++ (labelLine :: payloads).map Segment.copied ++ rest
    → LooksLiteral labelLine payloads rest
    → regionOf (Segments.source before) = .outside
    → regionOf (Segments.output "@" before) = .rodata false
    → Unnoticed table payloads rest

/-- The same of segments in the middle of an input, in the regions behind what was read and written
before them.
-/
def NoStrayFrom (table : Rom.Table) (read written : Region) (segments : List Segment) : Prop :=
  ∀ before labelLine payloads rest,
    segments = before ++ (labelLine :: payloads).map Segment.copied ++ rest
    → LooksLiteral labelLine payloads rest
    → read.behind (Segments.source before) = .outside
    → written.behind (Segments.output "@" before) = .rodata false
    → Unnoticed table payloads rest

theorem behind_outside (lines : List String)
    : Region.outside.behind lines = regionOf lines := by
  simpa [regionOf_nil] using (regionOf_append [] lines).symm

theorem noStrayFrom_outside {segments : List Segment}
    : NoStrayFrom table .outside .outside segments ↔ NoStray table segments := by
  simp only [NoStrayFrom, NoStray, behind_outside]

theorem NoStrayFrom.later {read written : Region} {part segments : List Segment}
    (clean : NoStrayFrom table read written (part ++ segments))
    : NoStrayFrom table (read.behind (Segments.source part))
        (written.behind (Segments.output "@" part)) segments := by
  intro before labelLine payloads rest whole looks outside inside
  refine clean (part ++ before) labelLine payloads rest ?_ looks ?_ ?_
  · rw [whole]
    simp
  · rwa [source_append, behind_append]
  · rwa [output_append, behind_append]

theorem NoStrayFrom.tail {read written : Region} {segment : Segment} {segments : List Segment}
    (clean : NoStrayFrom table read written (segment :: segments))
    : NoStrayFrom table (read.behind segment.source) (written.behind (segment.output "@"))
        segments := by
  have passed : NoStrayFrom table read written ([segment] ++ segments) := clean
  simpa using passed.later

-----------------------------------------------------------------------------------------
-- Lines that keep their forms
-----------------------------------------------------------------------------------------

theorem after_of_inert {region : Region} {line : String} (inert : Inert line)
    : region.after line = region :=
  after_of_plain inert.isSectionSwitch inert.isAnchor

/-- A change of lines that a scan does not see. -/
def KeepsForms (change : String → String) : Prop :=
  ∀ line, change line = line ∨ Inert line ∧ Inert (change line)

namespace KeepsForms

variable {change : String → String} (keeps : KeepsForms change) {line : String}
include keeps

theorem holds (form : String → Prop) (inert : ∀ own, Inert own → form own) (given : form line)
    : form (change line) := by
  rcases keeps line with same | ⟨-, changed⟩
  · rwa [same]
  · exact inert _ changed

theorem eq_of_not_inert (formed : ¬Inert line) : change line = line :=
  (keeps line).resolve_right fun inert => formed inert.1

theorem after (region : Region) (line : String)
    : region.after (change line) = region.after line := by
  rcases keeps line with same | ⟨inert, changed⟩
  · rw [same]
  · rw [after_of_inert inert, after_of_inert changed]

theorem behind (region : Region) (lines : List String)
    : region.behind (lines.map change) = region.behind lines := by
  induction lines generalizing region with
  | nil => rfl
  | cons line rest ih =>
      simp only [Region.behind, List.map_cons, List.foldl_cons] at ih ⊢
      rw [keeps.after, ih]

end KeepsForms

structure Passive (line : String) : Prop where
  notFunction : isFunctionSection line = false
  label : label? line = none
  payload : payload? line = none

theorem Passive.of_inert {line : String} (inert : Inert line) : Passive line :=
  { notFunction := inert.isFunctionSection, label := inert.label, payload := inert.payload? }

theorem Passive.of_definition {symbol : String} (isSymbol : IsSymbol symbol) (address : Address)
    : Passive (definition symbol address) :=
  { notFunction := isFunctionSection_definition isSymbol address
    label := label?_definition isSymbol address
    payload := payload?_definition isSymbol address }

theorem Passive.change {change : String → String} (keeps : KeepsForms change) {line : String}
    (passive : Passive line)
    : Passive (change line) :=
  keeps.holds Passive (fun _ => .of_inert) passive

/-- Lines that open nothing are quiet, by induction on them. -/
theorem QuietFrom.passive {region : Region} {lines more : List String}
    (passive : ∀ line ∈ lines, Passive line) (quiet : QuietFrom table (region.behind lines) more)
    : QuietFrom table region (lines ++ more) := by
  induction lines generalizing region with
  | nil => exact quiet
  | cons line rest ih =>
      obtain ⟨head, others⟩ := List.forall_mem_cons.mp passive
      exact .line head.notFunction (fun _ _ => head.label) (ih others quiet)

end RomStrings.Scan
