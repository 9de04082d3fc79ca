import RomStrings.Proofs.Scan.Blocks
import RomStrings.Proofs.Scan.Runs

/-!
Where a scan stands, read off the lines behind it. The last line that may change the section decides
whether the scan is in read-only data, and the lines since then decide the rest. None of this needs
to know which blocks were read on the way.
-/

namespace RomStrings.Scan

open Assembly

-----------------------------------------------------------------------------------------
-- The lines behind
-----------------------------------------------------------------------------------------

/-- The last line that may change the section. -/
def lastSwitch? (seen : List String) : Option String :=
  seen.reverse.find? isSectionSwitch

/-- The lines behind the last one that may change the section. -/
def sinceSwitch (seen : List String) : List String :=
  (seen.reverse.takeWhile fun line => !isSectionSwitch line).reverse

/-- The last line that may change the section opens one of read-only data, other than that of a
function-name object.
-/
def endsInRodata (seen : List String) : Bool :=
  (lastSwitch? seen).any fun line => isRodataSection line && !isFunctionSection line

/-- An anchor stands behind the last line that may change the section. -/
def anchoredSince (seen : List String) : Bool :=
  (sinceSwitch seen).any isAnchor

def isPayload (line : String) : Bool :=
  (payload? line).isSome

/-- The last line that stores no string data. -/
def lastOther? (lines : List String) : Option String :=
  lines.reverse.find? fun line => !isPayload line

/-- The lines of string data at the end. -/
def payloadsAtEnd (lines : List String) : List String :=
  (lines.reverse.takeWhile isPayload).reverse

/-- Lines with a literal open at their end: its label line, and the payload lines behind that. -/
def openSince? (lines : List String) : Option (String × List String) :=
  ((lastOther? lines).filter fun line => (label? line).isSome).map fun line =>
    (line, payloadsAtEnd lines)

section Snoc

variable (seen : List String) (line : String)

theorem find?_reverse_snoc (form : String → Bool)
    : (seen ++ [line]).reverse.find? form
      = if form line then some line else seen.reverse.find? form := by
  rw [List.reverse_append, List.reverse_singleton, List.singleton_append, List.find?_cons]
  cases form line <;> rfl

theorem reverse_takeWhile_snoc (form : String → Bool)
    : ((seen ++ [line]).reverse.takeWhile form).reverse
      = if form line then (seen.reverse.takeWhile form).reverse ++ [line] else [] := by
  rw [List.reverse_append, List.reverse_singleton, List.singleton_append, List.takeWhile_cons]
  cases form line <;> simp

theorem lastSwitch?_snoc
    : lastSwitch? (seen ++ [line])
      = if isSectionSwitch line then some line else lastSwitch? seen :=
  find?_reverse_snoc seen line isSectionSwitch

theorem sinceSwitch_snoc
    : sinceSwitch (seen ++ [line])
      = if isSectionSwitch line then [] else sinceSwitch seen ++ [line] := by
  rw [sinceSwitch, reverse_takeWhile_snoc]
  cases isSectionSwitch line <;> rfl

theorem lastOther?_snoc
    : lastOther? (seen ++ [line]) = if isPayload line then lastOther? seen else some line := by
  rw [lastOther?, find?_reverse_snoc]
  cases isPayload line <;> rfl

theorem payloadsAtEnd_snoc
    : payloadsAtEnd (seen ++ [line])
      = if isPayload line then payloadsAtEnd seen ++ [line] else [] :=
  reverse_takeWhile_snoc seen line isPayload

end Snoc

-----------------------------------------------------------------------------------------
-- Regions
-----------------------------------------------------------------------------------------

/-- The part of an input that a line stands in. -/
inductive Region where
  /-- Any section but one of read-only data, which includes those of function-name objects. -/
  | outside
  /-- A section of read-only data, with an anchor before the line or without. -/
  | rodata (anchored : Bool)
  deriving DecidableEq, Repr

/-- The region behind one more line. -/
def Region.after (region : Region) (line : String) : Region :=
  if isSectionSwitch line then
    if isRodataSection line && !isFunctionSection line then .rodata false else .outside
  else
    match region with
    | .outside => .outside
    | .rodata anchored => .rodata (anchored || isAnchor line)

/-- The region behind the lines. -/
def Region.behind (region : Region) (lines : List String) : Region :=
  lines.foldl Region.after region

/-- The region behind the lines, read off them. -/
def regionOf (seen : List String) : Region :=
  if endsInRodata seen then .rodata (anchoredSince seen) else .outside

theorem regionOf_snoc (seen : List String) (line : String)
    : regionOf (seen ++ [line]) = (regionOf seen).after line := by
  cases switches : isSectionSwitch line with
  | true =>
      simp [regionOf, endsInRodata, anchoredSince, lastSwitch?_snoc, sinceSwitch_snoc,
        Region.after, switches]
  | false =>
      have same : endsInRodata (seen ++ [line]) = endsInRodata seen := by
        simp [endsInRodata, lastSwitch?_snoc, switches]
      have more : anchoredSince (seen ++ [line]) = (anchoredSince seen || isAnchor line) := by
        simp [anchoredSince, sinceSwitch_snoc, switches]
      rw [regionOf, regionOf, same, more]
      cases endsInRodata seen <;> simp [Region.after, switches]

/-- The region can be followed line by line, by induction on the lines. -/
theorem regionOf_append (seen lines : List String)
    : regionOf (seen ++ lines) = (regionOf seen).behind lines := by
  induction lines generalizing seen with
  | nil => simp [Region.behind]
  | cons line rest ih =>
      rw [List.append_cons, ih, regionOf_snoc]
      rfl

theorem regionOf_nil : regionOf [] = .outside := rfl

theorem regionOf_eq_rodata_iff {seen : List String} {anchored : Bool}
    : regionOf seen = .rodata anchored
      ↔ endsInRodata seen = true ∧ anchoredSince seen = anchored := by
  cases inRodata : endsInRodata seen <;> simp [regionOf, inRodata]

theorem behind_append (region : Region) (lines more : List String)
    : region.behind (lines ++ more) = (region.behind lines).behind more := by
  simp [Region.behind]

section After

variable {region : Region} {line : String}

/-- A line that changes no section and sets no anchor keeps the region. -/
theorem after_of_plain (stays : isSectionSwitch line = false) (plain : isAnchor line = false)
    : region.after line = region := by
  cases region <;> simp [Region.after, stays, plain]

theorem after_of_label {label : String} (stays : isSectionSwitch line = false)
    (labels : label? line = some label)
    : region.after line = region :=
  after_of_plain stays (isAnchor_of_label? labels)

theorem after_of_payload (stores : isPayload line = true)
    : region.after line = region := by
  obtain ⟨payload, stores⟩ := Option.isSome_iff_exists.mp stores
  exact after_of_plain (isSectionSwitch_of_payload? stores) (isAnchor_of_payload? stores)

theorem behind_payloads {payloads : List String}
    (stores : ∀ line ∈ payloads, isPayload line = true) (region : Region)
    : region.behind payloads = region := by
  induction payloads with
  | nil => rfl
  | cons line rest ih =>
      obtain ⟨stored, others⟩ := List.forall_mem_cons.mp stores
      have head : region.after line = region := after_of_payload stored
      simpa [Region.behind, head] using ih others

theorem behind_label {labelLine label : String} {payloads : List String}
    (stays : isSectionSwitch labelLine = false) (labels : label? labelLine = some label)
    (stores : ∀ line ∈ payloads, isPayload line = true) (region : Region)
    : region.behind (labelLine :: payloads) = region := by
  have head : region.after labelLine = region := after_of_label stays labels
  simpa [Region.behind, head] using behind_payloads stores region

theorem after_of_switch (other : Region) (switches : isSectionSwitch line = true)
    : region.after line = other.after line := by
  simp [Region.after, switches]

theorem after_outside (closed : isRodataSection line = false ∨ isFunctionSection line = true)
    : Region.outside.after line = .outside := by
  cases switches : isSectionSwitch line with
  | false => simp [Region.after, switches]
  | true => rcases closed with closed | closed <;> simp [Region.after, switches, closed]

theorem after_of_rodataSection (notFunction : isFunctionSection line = false)
    (opens : isRodataSection line = true)
    : region.after line = .rodata false := by
  simp [Region.after, isSectionSwitch_of_isRodataSection opens, opens, notFunction]

/-- The section line of a function-name object leaves read-only data. -/
theorem after_of_functionSection (opens : isFunctionSection line = true)
    : region.after line = .outside := by
  simp [Region.after, isSectionSwitch_of_isFunctionSection opens, opens]

/-- Where the section goes on as it was, with no anchor read, it was so before. -/
theorem eq_of_after (stays : isSectionSwitch line = false)
    (read : region.after line = .rodata false)
    : region = .rodata false ∧ isAnchor line = false := by
  cases region with
  | outside => simp [Region.after, stays] at read
  | rodata anchored => simpa [Region.after, stays] using read

end After

-----------------------------------------------------------------------------------------
-- Where a scan stands
-----------------------------------------------------------------------------------------

/-- The lines with a literal open at their end, in a section that no anchor keeps as it is. -/
def openAt? (seen : List String) : Option (String × List String) :=
  if regionOf seen = .rodata false then openSince? (sinceSwitch seen) else none

/-- The lines of an open literal behind one more line, in the region behind that line. -/
def openAfter? (region : Region) (line : String) (opened : Option (String × List String))
    : Option (String × List String) :=
  if region = .rodata false then
    if isPayload line then opened.map fun lines => (lines.1, lines.2 ++ [line])
    else if (label? line).isSome then some (line, []) else none
  else
    none

theorem isPayload_of_section {line : String} {operands : List Char}
    (found : operandsOf? "section" line.toList = some operands)
    : isPayload line = false := by
  simp [isPayload, (Formless.of_section found).payload]

theorem isPayload_of_collected {literal : Literal} (collected : literal.Collected)
    : ∀ line ∈ literal.payloads.map Prod.fst, isPayload line = true := by
  intro line member
  obtain ⟨pair, known, rfl⟩ := List.mem_map.mp member
  obtain ⟨payload, stores, -⟩ := collected.stores pair known
  exact Option.isSome_of_eq_some stores

/-- Payload lines with the bytes that each of them stores, by induction on the lines. -/
theorem pairs_of_stores {payloads : List String} {raw : Bytes} (stored : Stores payloads raw)
    (stores : ∀ line ∈ payloads, isPayload line = true)
    : ∃ pairs : List (String × Bytes),
        pairs.map Prod.fst = payloads
        ∧ pairs.flatMap Prod.snd = raw
        ∧ ∀ pair ∈ pairs, ∃ payload,
            payload? pair.1 = some payload ∧ payload.bytes = .ok pair.2 := by
  induction stored with
  | nil => exact ⟨[], rfl, rfl, List.forall_mem_nil _⟩
  | @other line _ _ plain _ _ =>
      obtain ⟨stored, -⟩ := List.forall_mem_cons.mp stores
      simp [isPayload, plain] at stored
  | @payload line lines payload own bytes known decodes _ ih =>
      obtain ⟨-, others⟩ := List.forall_mem_cons.mp stores
      obtain ⟨pairs, rfl, rfl, all⟩ := ih others
      exact ⟨(line, own) :: pairs, rfl, rfl,
        List.forall_mem_cons.mpr ⟨⟨payload, known, decodes⟩, all⟩⟩

/-- What is open is known from what was open before, by cases on the forms of the line. -/
theorem openAt?_snoc (seen : List String) (line : String)
    : openAt? (seen ++ [line])
      = openAfter? (regionOf (seen ++ [line])) line (openAt? seen) := by
  by_cases read : regionOf (seen ++ [line]) = .rodata false
  · simp only [openAt?, openAfter?, read, if_true]
    rw [regionOf_snoc] at read
    cases switches : isSectionSwitch line with
    | true =>
        -- A switch to read-only data is its section line, which opens nothing.
        have opens : isRodataSection line = true := by
          cases opens : isRodataSection line with
          | true => rfl
          | false => simp [Region.after, switches, opens] at read
        obtain ⟨operands, found⟩ := operandsOf?_of_isRodataSection opens
        simp [sinceSwitch_snoc, switches, openSince?, lastOther?, isPayload_of_section found,
          label?_of_operandsOf? found]
    | false =>
        obtain ⟨before, -⟩ := eq_of_after switches read
        simp only [sinceSwitch_snoc, switches, Bool.false_eq_true, if_false, before, if_true,
          openSince?, lastOther?_snoc, payloadsAtEnd_snoc]
        cases stores : isPayload line with
        | true => simp [Option.map_map, Function.comp_def]
        | false => cases labels : label? line <;> simp [labels]
  · simp [openAt?, openAfter?, read]

/-- Payload lines stay with the literal that is open, by induction on them. -/
theorem openAt?_payloads {seen earlier payloads : List String} {labelLine : String}
    (region : regionOf seen = .rodata false) (opened : openAt? seen = some (labelLine, earlier))
    (stores : ∀ line ∈ payloads, isPayload line = true)
    : openAt? (seen ++ payloads) = some (labelLine, earlier ++ payloads) := by
  induction payloads generalizing seen earlier with
  | nil => simpa using opened
  | cons line rest ih =>
      obtain ⟨stored, others⟩ := List.forall_mem_cons.mp stores
      have same : regionOf (seen ++ [line]) = .rodata false := by
        rw [regionOf_snoc, after_of_payload stored, region]
      have more : openAt? (seen ++ [line]) = some (labelLine, earlier ++ [line]) := by
        rw [openAt?_snoc, same, opened]
        simp [openAfter?, stored]
      simpa using ih same more others

/-- A label opens a literal in a section that is read, and the payload lines behind it stay with it.
-/
theorem openAt?_literal {seen payloads : List String} {labelLine : String}
    (region : regionOf seen = .rodata false) (stays : isSectionSwitch labelLine = false)
    (labels : (label? labelLine).isSome = true)
    (stores : ∀ line ∈ payloads, isPayload line = true)
    : openAt? (seen ++ labelLine :: payloads) = some (labelLine, payloads) := by
  obtain ⟨label, known⟩ := Option.isSome_iff_exists.mp labels
  have same : regionOf (seen ++ [labelLine]) = .rodata false := by
    rw [regionOf_snoc, after_of_label stays known, region]
  have opened : openAt? (seen ++ [labelLine]) = some (labelLine, []) := by
    rw [openAt?_snoc, same]
    simp [openAfter?, isPayload, payload?_of_label? known, labels]
  simpa using openAt?_payloads same opened stores

/-- The region that a mode stands for. -/
def Mode.region (leftAlone : Bool) : Mode → Region
  | .rodata | .literal _ => .rodata leftAlone
  | .outside | .entering | .function _ => .outside

/-- The lines of the literal that is open. -/
def Mode.opened? : Mode → Option (String × List String)
  | .literal block => some (block.labelLine, block.payloads.map Prod.fst)
  | _ => none

/-- A line is only passed to an object's first mode, and no line leads there to stay. -/
theorem Takes.ne_entering {table : Rom.Table} {number : Nat} {leftAlone : Bool} {line : String}
    {mode : Mode} {taken : Taken}
    (takes : Takes table number leftAlone line mode taken)
    : taken.mode ≠ .entering := by
  induction takes with
  | functionSection _ _ ih | sectionSwitch _ _ ih | literalEnds _ _ ih | completed _ _ ih
    | misfit _ _ ih => exact ih
  | _ => exact Mode.noConfusion

/-- The block that is open holds what a scan collects. -/
def Mode.Collected : Mode → Prop
  | .literal block => block.Collected
  | .function block => block.Collected
  | _ => True

/-- Where the scan stands agrees with the lines behind it. -/
structure Stands (seen : List String) (mode : Mode) (leftAlone : Bool) : Prop where
  region : mode.region leftAlone = regionOf seen
  opened : mode.opened? = openAt? seen
  read : mode.opened?.isSome = true → leftAlone = false
  collected : mode.Collected
  resting : mode ≠ .entering

/-- A line leads to the region behind it, by cases on the rules. On a section line that is passed
to an object's first mode, the line is known to be that of an object.
-/
theorem Takes.region {table : Rom.Table} {number : Nat} {leftAlone : Bool} {line : String}
    {mode : Mode} {taken : Taken}
    (takes : Takes table number leftAlone line mode taken)
    (enters : mode = .entering → isFunctionSection line = true)
    : taken.mode.region taken.leftAlone = (mode.region leftAlone).after line := by
  induction takes with
  | entering => exact (after_of_functionSection (enters rfl)).symm
  | functionSection opens _ ih => exact ih fun _ => opens
  | rodataSection notFunction opens => exact (after_of_rodataSection notFunction opens).symm
  | outside _ notRodata => exact (after_outside (.inl notRodata)).symm
  | sectionSwitch switches _ ih =>
      rw [ih nofun]
      exact after_of_switch _ switches
  | leftAlone stays alone => simp [Mode.region, Region.after, stays, alone]
  | anchor stays read anchors => simp [Mode.region, Region.after, stays, anchors]
  | label stays read plain labels => simp [Mode.region, after_of_plain stays plain, read]
  | other stays read plain _ => simp [Mode.region, after_of_plain stays plain, read]
  | payload stores _ =>
      have stored : isPayload line = true := Option.isSome_of_eq_some stores
      exact (after_of_payload stored).symm
  | literalEnds _ _ ih => exact ih nofun
  | accepted fits =>
      have notRodata := (FunctionStage.fits_of_advance fits).isRodataSection
      exact (after_outside (.inl notRodata)).symm
  | completed _ _ ih | misfit _ _ ih => exact ih nofun

/-- A literal is open behind a line as the line and what was open before have it, by cases on the
rules.
-/
theorem Takes.opened {table : Rom.Table} {number : Nat} {leftAlone : Bool} {line : String}
    {mode : Mode} {taken : Taken}
    (takes : Takes table number leftAlone line mode taken)
    (read : mode.opened?.isSome = true → leftAlone = false)
    : taken.mode.opened?
        = openAfter? (taken.mode.region taken.leftAlone) line mode.opened?
      ∧ (taken.mode.opened?.isSome = true → taken.leftAlone = false) := by
  induction takes with
  | entering | accepted _ => exact ⟨by simp [Mode.opened?, Mode.region, openAfter?], nofun⟩
  | functionSection _ _ ih | sectionSwitch _ _ ih => exact ih nofun
  | rodataSection _ opens =>
      obtain ⟨operands, found⟩ := operandsOf?_of_isRodataSection opens
      have plain := isPayload_of_section found
      have unlabelled := label?_of_operandsOf? found
      exact ⟨by simp [Mode.opened?, Mode.region, openAfter?, plain, unlabelled], nofun⟩
  | outside _ _ | leftAlone _ _ | anchor _ _ _ =>
      exact ⟨by simp [Mode.opened?, Mode.region, openAfter?], nofun⟩
  | label _ _ _ labels =>
      have plain : isPayload line = false := by simp [isPayload, payload?_of_label? labels]
      exact ⟨by simp [Mode.opened?, Mode.region, openAfter?, plain, labels], fun _ => rfl⟩
  | other _ _ _ unlabelled =>
      exact ⟨by simp [Mode.opened?, Mode.region, openAfter?, unlabelled], nofun⟩
  | payload stores _ =>
      have stored : isPayload line = true := Option.isSome_of_eq_some stores
      have alone := read rfl
      exact ⟨by simp [Mode.opened?, Mode.region, openAfter?, stored, alone, Literal.add],
        fun _ => alone⟩
  | literalEnds ends _ ih =>
      have plain : isPayload line = false := by simp [isPayload, ends]
      obtain ⟨opened, alone⟩ := ih nofun
      refine ⟨?_, alone⟩
      rw [opened]
      simp [openAfter?, plain]
  | completed _ _ ih | misfit _ _ ih => exact ih nofun

/-- A block goes on as it was collected, by cases on the rules. -/
theorem Takes.collected {table : Rom.Table} {number : Nat} {leftAlone : Bool} {line : String}
    {mode : Mode} {taken : Taken}
    (takes : Takes table number leftAlone line mode taken)
    (enters : mode = .entering → isFunctionSection line = true) (before : mode.Collected)
    : taken.mode.Collected := by
  induction takes with
  | entering => exact .start (enters rfl)
  | functionSection opens _ ih => exact ih (fun _ => opens) trivial
  | label stays _ _ labels => exact { stays, labels, stores := nofun }
  | payload stores decodes => exact Literal.Collected.add before stores decodes
  | accepted fits => exact FunctionBlock.Collected.add before fits
  | sectionSwitch _ _ ih | literalEnds _ _ ih | completed _ _ ih | misfit _ _ ih =>
      exact ih nofun trivial
  | rodataSection _ _ | outside _ _ | leftAlone _ _ | anchor _ _ _ | other _ _ _ _ => trivial

/-- One more line keeps a scan in step with the lines behind it. -/
theorem Stands.takes {table : Rom.Table} {seen : List String} {number : Nat} {leftAlone : Bool}
    {line : String} {mode : Mode} {taken : Taken} (stands : Stands seen mode leftAlone)
    (takes : Takes table number leftAlone line mode taken)
    : Stands (seen ++ [line]) taken.mode taken.leftAlone := by
  have enters : mode = .entering → isFunctionSection line = true := fun enters =>
    absurd enters stands.resting
  have region : taken.mode.region taken.leftAlone = regionOf (seen ++ [line]) := by
    rw [regionOf_snoc, ← stands.region]
    exact takes.region enters
  obtain ⟨opened, read⟩ := takes.opened stands.read
  refine {
    region
    opened := ?_
    read
    collected := takes.collected enters stands.collected
    resting := takes.ne_entering
  }
  rw [openAt?_snoc, ← region, ← stands.opened]
  exact opened

/-- A run keeps a scan in step with the lines behind it, by induction on the run. -/
theorem Stands.reads {table : Rom.Table} {seen lines : List String} {scanner last : Scanner}
    {settled : List Segment} (stands : Stands seen scanner.mode scanner.leftAlone)
    (run : Reads table scanner lines settled last)
    : Stands (seen ++ lines) last.mode last.leftAlone := by
  induction run generalizing seen with
  | nil => simpa using stands
  | cons fed _ ih => simpa using ih (stands.takes (feed_eq_ok_iff.mp fed).1)

/-- At its start, a scan stands outside read-only data with nothing open. -/
theorem stands_start : Stands [] .outside false :=
  { region := rfl, opened := rfl, read := nofun, collected := trivial, resting := nofun }

end RomStrings.Scan
