import RomStrings.Proofs.Scan.Stray

/-!
Scanning output again. The segments of the first scan are followed one by one, and what is written
of each is quiet from the region that the second scan is in, as that is the region of the first scan
unless the first one is outside read-only data.
-/

namespace RomStrings.Scan

open Assembly

variable {table : Rom.Table} {change : String → String}

-----------------------------------------------------------------------------------------
-- What is written of a block
-----------------------------------------------------------------------------------------

/-- Lines with forms are not changed, by induction on them. -/
theorem KeepsForms.map_eq (keeps : KeepsForms change) {lines : List String}
    (formed : ∀ line ∈ lines, ¬Inert line)
    : lines.map change = lines := by
  induction lines with
  | nil => rfl
  | cons line rest ih =>
      obtain ⟨head, others⟩ := List.forall_mem_cons.mp formed
      rw [List.map_cons, ih others, keeps.eq_of_not_inert head]

theorem not_inert_of_label {line label : String} (labels : label? line = some label)
    : ¬Inert line := by
  intro inert
  simp [inert.label] at labels

theorem not_inert_of_payload {line : String} (stores : isPayload line = true) : ¬Inert line := by
  intro inert
  simp [isPayload, inert.payload?] at stores

theorem not_inert_of_functionSection {line : String} (opens : isFunctionSection line = true)
    : ¬Inert line := by
  intro inert
  simp [inert.isFunctionSection] at opens

theorem formed_label {labelLine label : String} {payloads : List String}
    (labels : label? labelLine = some label) (stores : ∀ line ∈ payloads, isPayload line = true)
    : ∀ line ∈ labelLine :: payloads, ¬Inert line := by
  intro line member
  rcases List.mem_cons.mp member with rfl | member
  · exact not_inert_of_label labels
  · exact not_inert_of_payload (stores line member)

/-- Every line of a function-name object has a form, by induction on the lines collected. -/
theorem formed_object {object : FunctionBlock} (collected : object.Collected)
    : ∀ line ∈ object.lines, ¬Inert line := by
  induction collected with
  | start opens =>
      intro line member
      rw [List.mem_singleton.mp member]
      exact not_inert_of_functionSection opens
  | add _ accepts ih =>
      intro line member
      rcases List.mem_append.mp member with member | member
      · exact ih line member
      · rw [List.mem_singleton.mp member]
        have fits := FunctionStage.fits_of_advance accepts
        exact fun inert => fits.not_formless (.of_inert inert)

theorem formless_of_functionSection {line : String} (opens : isFunctionSection line = true)
    : Formless line := by
  obtain ⟨operands, found⟩ := operandsOf?_of_isFunctionSection opens
  exact .of_section found

/-- The symbols of a resolved block are symbols. -/
theorem Resolves.isSymbol {region : Region} {block : Block} {found : Rom.Match}
    (resolves : Resolves table region block found)
    : ∀ symbol ∈ movedSymbols block.label block.anchor, IsSymbol symbol := by
  intro symbol member
  obtain ⟨line, -, labels | defines⟩ := resolves.symbol_line symbol member
  · exact (isSymbol_of_label? labels).1
  · exact isSymbol_of_anchorDefinition? defines

/-- What is written of a resolved block opens nothing. -/
theorem Resolves.passive_written (keeps : KeepsForms change) {region : Region} {block : Block}
    {found : Rom.Match} (resolves : Resolves table region block found)
    : ∀ line ∈ ((Segment.resolved block found).output "@").map change, Passive line := by
  intro line member
  obtain ⟨own, output, rfl⟩ := List.mem_map.mp member
  refine Passive.change keeps ?_
  rcases List.mem_append.mp output with member | member
  · obtain ⟨read, -, rfl⟩ := List.mem_map.mp member
    exact .of_inert (inert_annotated read)
  · obtain ⟨symbol, known, rfl⟩ := List.mem_map.mp member
    exact .of_definition (resolves.isSymbol symbol known) found.address

/-- What is written of a resolved literal keeps the region: its label is no section directive. -/
theorem behind_resolved_literal {literal : Literal} (collected : literal.Collected)
    (found : Rom.Match) (region : Region)
    : region.behind ((Segment.resolved literal.block found).output "@") = region := by
  have annotations (lines : List String) : region.behind (lines.map (annotated "@")) = region := by
    induction lines with
    | nil => rfl
    | cons line rest ih =>
        simpa [Region.behind, after_of_inert (inert_annotated line)] using ih
  have isSymbol := (isSymbol_of_label? collected.labels).1
  have definition : region.after (definition literal.label found.address) = region := by
    refine after_of_plain ?_ (isAnchor_definition isSymbol found.address)
    rw [isSectionSwitch_definition collected.labels]
    exact collected.stays
  have output : (Segment.resolved literal.block found).output "@"
      = literal.lines.map (annotated "@") ++ [Assembly.definition literal.label found.address] :=
    rfl
  rw [output, behind_append, annotations]
  exact definition

-----------------------------------------------------------------------------------------
-- First lines
-----------------------------------------------------------------------------------------

/-- A segment that is laid out has a first line, by cases on the layout. -/
theorem Laid.first {region : Region} {segment : Segment} {rest : List Segment}
    (laid : Laid table region (segment :: rest))
    : ∃ line others, segment.source = line :: others := by
  cases laid with
  | copied | anchored => exact ⟨_, [], rfl⟩
  | literal _ _ _ _ => exact ⟨_, _, source_ofLiteral _⟩
  | completed collected _ _ _ =>
      obtain ⟨line, others, same, -⟩ := collected.opening
      exact ⟨line, others, (source_ofBlock _).trans same⟩
  | aborted collected _ _ _ =>
      obtain ⟨line, others, same, -⟩ := collected.opening
      exact ⟨line, others, same⟩

/-- The first line written of a segment is its own first line, or stands behind a mark. -/
theorem KeepsForms.first_output (keeps : KeepsForms change) {segment : Segment} {line : String}
    {others : List String} (source : segment.source = line :: others)
    : ∃ first more,
        (segment.output "@").map change = first :: more
        ∧ (first = change line ∨ segment.isResolved = true ∧ Inert first) := by
  cases kept : segment.isResolved with
  | false =>
      rw [output_of_not_resolved kept, source]
      exact ⟨change line, others.map change, rfl, .inl rfl⟩
  | true =>
      cases segment with
      | copied _ | anchored _ _ | aborted _ _ | unmatched _ => cases kept
      | resolved block found =>
          have lines : block.lines = line :: others := source
          simp only [Segment.output, replacement, lines, List.map_cons, List.cons_append]
          exact ⟨_, _, rfl, .inr ⟨trivial, keeps.holds Inert (fun _ => id) (inert_annotated line)⟩⟩

/-- What is written ends a block as what was read did. The first line written stores data only if
the first line read does, and outside read-only data it is that line, or neither has a form.
-/
theorem Laid.first_output (keeps : KeepsForms change) {region : Region} {segments : List Segment}
    {next : String} (laid : Laid table region segments)
    (starts : (Segments.source segments).head? = some next)
    : ∃ first more,
        (Segments.output "@" segments).map change = first :: more
        ∧ (payload? next = none → payload? first = none)
        ∧ (region = .outside → first = next ∨ Formless next ∧ Formless first) := by
  cases segments with
  | nil => cases starts
  | cons segment rest =>
      obtain ⟨line, others, source⟩ := laid.first
      obtain rfl : line = next := by simpa [source] using starts
      obtain ⟨first, more, output, first_eq⟩ := keeps.first_output source
      refine ⟨first, more ++ (Segments.output "@" rest).map change, by simp [output], ?_⟩
      rcases first_eq with rfl | ⟨resolved, inert⟩
      · rcases keeps line with same | ⟨inert, changed⟩
        · rw [same]
          exact ⟨id, fun _ => .inl rfl⟩
        · exact ⟨fun _ => changed.payload?, fun _ => .inr ⟨.of_inert inert, .of_inert changed⟩⟩
      · refine ⟨fun _ => inert.payload?, ?_⟩
        rintro rfl
        -- Outside read-only data only an object is resolved, and it starts with its section line.
        cases segment with
        | copied _ | anchored _ _ | aborted _ _ | unmatched _ => cases resolved
        | resolved block found =>
            cases laid.resolves with
            | object collected _ _ =>
                obtain ⟨head, tail, same, opens⟩ := collected.opening
                obtain ⟨rfl, -⟩ := List.cons.inj (same.symm.trans source)
                exact .inr ⟨formless_of_functionSection opens, .of_inert inert⟩

-----------------------------------------------------------------------------------------
-- Stray literals of the output
-----------------------------------------------------------------------------------------

/-- The segments start with the copied payload lines, and with no more of them behind. -/
structure StartsWithPayloads (segments : List Segment) (payloads : List String)
    (rest : List Segment)
    : Prop where
  whole : segments = payloads.map Segment.copied ++ rest
  stores : ∀ line ∈ payloads, isPayload line = true
  ends : ∀ line later, rest = .copied line :: later → isPayload line = false

/-- Segments start with some payload lines, perhaps none, by induction on the segments. -/
theorem exists_payloads (segments : List Segment)
    : ∃ payloads rest, StartsWithPayloads segments payloads rest := by
  induction segments with
  | nil => exact ⟨[], [], rfl, nofun, nofun⟩
  | cons segment segments ih =>
      by_cases stores : ∃ line, segment = .copied line ∧ isPayload line = true
      · obtain ⟨line, rfl, stores⟩ := stores
        obtain ⟨payloads, rest, rfl, all, ends⟩ := ih
        exact ⟨line :: payloads, rest, rfl, List.forall_mem_cons.mpr ⟨stores, all⟩, ends⟩
      · refine ⟨[], segment :: segments, rfl, nofun, ?_⟩
        intro line later same
        cases stored : isPayload line with
        | false => rfl
        | true => exact absurd ⟨line, (List.cons.inj same).1, stored⟩ stores

/-- Outside read-only data, what is not a copied payload line does not start with data. -/
theorem Laid.ends_outside {segments : List Segment} (laid : Laid table .outside segments)
    (plain : ∀ line later, segments = .copied line :: later → isPayload line = false)
    {next : String} (starts : (Segments.source segments).head? = some next)
    : payload? next = none := by
  cases laid with
  | nil => cases starts
  | copied _ _ =>
      cases starts
      simpa [isPayload] using plain _ _ rfl
  | completed collected _ _ _ =>
      obtain ⟨line, others, same, opens⟩ := collected.opening
      obtain rfl : line = next := by
        simpa [source_ofBlock, FunctionBlock.lines_complete, same] using starts
      exact (formless_of_functionSection opens).payload
  | aborted collected _ _ _ =>
      obtain ⟨line, others, same, opens⟩ := collected.opening
      obtain rfl : line = next := by simpa [Segment.source, same] using starts
      exact (formless_of_functionSection opens).payload

/-- A stray literal that goes unnoticed is quiet. -/
theorem QuietFrom.stray {labelLine next : String} {payloads lines : List String} {raw : Bytes}
    {rest : List Segment} (looks : LooksLiteral labelLine payloads rest)
    (stored : Stores payloads raw) (unmatched : table.matchLiteral raw = none)
    (ends : payload? next = none) (quiet : QuietFrom table (.rodata false) (next :: lines))
    : QuietFrom table (.rodata false) (labelLine :: payloads ++ next :: lines) := by
  obtain ⟨label, labels⟩ := Option.isSome_iff_exists.mp looks.labels
  obtain ⟨pairs, rfl, rfl, stores⟩ := pairs_of_stores stored looks.stores
  have collected : ({ label, number := 0, labelLine, payloads := pairs } : Literal).Collected :=
    { stays := looks.stays, labels, stores }
  exact .literal collected (isResolved_ofLiteral.mpr (.inr unmatched)) ends quiet

-----------------------------------------------------------------------------------------
-- Output read again
-----------------------------------------------------------------------------------------

/-- The second scan is in the region of the first one, unless that is outside read-only data. -/
def Related (read written : Region) : Prop :=
  read = .outside ∨ read = written

/-- One more line keeps the regions related, by cases on whether it is a switch. -/
theorem Related.after {read written : Region} (related : Related read written) (line : String)
    : Related (read.after line) (written.after line) := by
  rcases related with rfl | rfl
  · cases switches : isSectionSwitch line with
    | true => exact .inr (after_of_switch written switches)
    | false => exact .inl (by simp [Region.after, switches])
  · exact .inr rfl

theorem Related.rodata {written : Region} {anchored : Bool}
    (related : Related (.rodata anchored) written)
    : written = .rodata anchored := by
  rcases related with outside | same
  · cases outside
  · exact same.symm

/-- What is written of a literal keeps the region, taken from ROM or not. -/
theorem behind_written_literal {literal : Literal} (collected : literal.Collected)
    (region : Region)
    : region.behind ((Segment.ofLiteral table literal).output "@") = region := by
  rcases ofLiteral_cases table literal with kept | ⟨found, resolved⟩
  · rw [output_of_not_resolved kept, source_ofLiteral, behind_literal collected]
  · rw [resolved, behind_resolved_literal collected]

/-- A copied line that is no stray label is quiet, and so is the line in its place. -/
theorem QuietFrom.copied (keeps : KeepsForms change) {read written : Region} {line : String}
    {lines : List String} (copies : read.Copies line)
    (plain : isSectionSwitch line = false → written = .rodata false → label? line = none)
    (quiet : QuietFrom table (written.after line) lines)
    : QuietFrom table written (change line :: lines) := by
  refine .line ?_ ?_ (by rwa [keeps.after])
  · exact keeps.holds (fun own => isFunctionSection own = false)
      (fun _ inert => inert.isFunctionSection) copies.notFunction
  · intro stays rodata
    exact keeps.holds (fun own => isSectionSwitch own = false → label? own = none)
      (fun _ inert _ => inert.label) (fun stays => plain stays rodata) stays

/-- A literal is quiet once it is written, taken from ROM or not. -/
theorem QuietFrom.written_literal (keeps : KeepsForms change) {literal : Literal}
    {rest : List Segment} {next : String} (collected : literal.Collected)
    (follows : (Segments.source rest).head? = some next) (ends : payload? next = none)
    (later : Laid table (.rodata false) rest)
    (quiet : QuietFrom table (.rodata false) ((Segments.output "@" rest).map change))
    : QuietFrom table (.rodata false)
        (((Segment.ofLiteral table literal).output "@").map change
          ++ (Segments.output "@" rest).map change) := by
  rcases ofLiteral_cases table literal with kept | ⟨found, resolved⟩
  · have formed := formed_label collected.labels (isPayload_of_collected collected)
    rw [output_of_not_resolved kept, source_ofLiteral, Literal.lines, keeps.map_eq formed]
    obtain ⟨first, more, output, stops, -⟩ := later.first_output keeps follows
    rw [output] at quiet ⊢
    exact .literal collected kept (stops ends) quiet
  · have laid : Laid table (.rodata false) (.resolved literal.block found :: rest) :=
      resolved ▸ .literal collected follows ends later
    rw [resolved]
    refine .passive (laid.resolves.passive_written keeps) ?_
    rwa [keeps.behind, behind_resolved_literal collected]

/-- An object that is not resolved is quiet once it is written, if its end is. -/
theorem QuietFrom.written_object (keeps : KeepsForms change) {object : FunctionBlock}
    {written : Region} {rest : List Segment} {next : String} (collected : object.Collected)
    (follows : (Segments.source rest).head? = some next)
    (ends : EndsQuietly table object.stage next) (later : Laid table .outside rest)
    (quiet : QuietFrom table .outside ((Segments.output "@" rest).map change))
    : QuietFrom table written
        (object.lines.map change ++ (Segments.output "@" rest).map change) := by
  rw [keeps.map_eq (formed_object collected)]
  obtain ⟨first, more, output, -, stops⟩ := later.first_output keeps follows
  rw [output] at quiet ⊢
  refine .object collected ?_ quiet
  rcases stops rfl with rfl | ⟨formless, changed⟩
  · exact ends
  · exact ends.formless formless changed

/-- An object with its payload is quiet once it is written, taken from ROM or not. -/
theorem QuietFrom.written_completed (keeps : KeepsForms change) {object : FunctionBlock}
    {written : Region} {number : Nat} {anchor : Option String} {symbol : String}
    {bytes : Bytes} {rest : List Segment} {next : String} (collected : object.Collected)
    (follows : (Segments.source rest).head? = some next)
    (ends : object.stage.advance number next = .ok (.complete anchor symbol bytes))
    (later : Laid table .outside rest)
    (quiet
      : QuietFrom table
          (written.behind
            ((Segment.ofBlock table (object.complete anchor symbol bytes)).output "@"))
          ((Segments.output "@" rest).map change))
    : QuietFrom table written
        (((Segment.ofBlock table (object.complete anchor symbol bytes)).output "@").map change
          ++ (Segments.output "@" rest).map change) := by
  rcases ofBlock_cases table (object.complete anchor symbol bytes)
    with ⟨kept, unmatched⟩ | ⟨found, resolved⟩
  · have output
        : (Segment.ofBlock table (object.complete anchor symbol bytes)).output "@"
          = object.lines := by
      rw [kept]
      rfl
    rw [output, behind_object collected] at quiet
    rw [output]
    exact .written_object keeps collected follows (.complete ends unmatched) later quiet
  · have laid
        : Laid table .outside (.resolved (object.complete anchor symbol bytes) found :: rest) :=
      resolved ▸ .completed collected follows ends later
    rw [resolved] at quiet ⊢
    refine .passive (laid.resolves.passive_written keeps) ?_
    rwa [keeps.behind]

/-- Segments that are laid out and not all over start with a line. -/
theorem Laid.starts {region : Region} {segments : List Segment}
    (laid : Laid table region segments) (remain : segments ≠ [])
    : ∃ next, (Segments.source segments).head? = some next := by
  cases segments with
  | nil => contradiction
  | cons segment rest =>
      obtain ⟨line, others, source⟩ := laid.first
      exact ⟨line, by simp [source]⟩

/-- A label outside read-only data is quiet where it is a stray literal, if what is behind its
payload lines is.
-/
theorem QuietFrom.stray_label (keeps : KeepsForms change) {line : String} {rest : List Segment}
    (stays : isSectionSwitch line = false) (labels : (label? line).isSome = true)
    (later : Laid table .outside rest)
    (clean : NoStrayFrom table .outside (.rodata false) (.copied line :: rest))
    (quiet
      : ∀ behind : List Segment,
          behind.length ≤ rest.length
          → Laid table .outside behind
          → NoStrayFrom table .outside (.rodata false) behind
          → QuietFrom table (.rodata false) ((Segments.output "@" behind).map change))
    : QuietFrom table (.rodata false)
        ((Segments.output "@" (.copied line :: rest)).map change) := by
  obtain ⟨label, known⟩ := Option.isSome_iff_exists.mp labels
  obtain ⟨payloads, behind, rfl, stores, ends⟩ := exists_payloads rest
  have keep := behind_label stays known stores
  have laid : Laid table .outside behind := by
    have laid := later.split
    rwa [source_map_copied, behind_payloads stores] at laid
  have looks : LooksLiteral line payloads behind :=
    { stays, labels, stores, ends := fun next starts => laid.ends_outside ends starts }
  obtain ⟨remain, raw, stored, unmatched⟩ := clean [] line payloads behind rfl looks rfl rfl
  obtain ⟨next, starts⟩ := laid.starts remain
  obtain ⟨first, more, output, stops, -⟩ := laid.first_output keeps starts
  have rest : QuietFrom table (.rodata false) (first :: more) := by
    rw [← output]
    refine quiet behind (by simp) laid ?_
    have passed
        : NoStrayFrom table .outside (.rodata false)
            ((line :: payloads).map Segment.copied ++ behind) := clean
    have later := passed.later
    rwa [source_map_copied, output_map_copied, keep, keep] at later
  have formed := formed_label known stores
  have lines : (Segments.output "@" (.copied line :: (payloads.map .copied ++ behind))).map change
      = line :: payloads ++ first :: more := by
    rw [← List.cons_append, ← List.map_cons (f := Segment.copied), output_append,
      output_map_copied, List.map_append, keeps.map_eq formed, output]
  rw [lines]
  exact rest.stray looks stored unmatched (stops (laid.ends_outside ends starts))

/-- What is written of laid out segments is quiet in every related region, unless a stray literal
is noticed, by induction on the number of segments. Every rule of the layout leads to one of the
quiet forms, and a stray literal takes the payload lines copied behind its label with it.
-/
theorem Laid.quiet (keeps : KeepsForms change) {read written : Region} {segments : List Segment}
    (laid : Laid table read segments) (related : Related read written)
    (clean : NoStrayFrom table read written segments)
    : QuietFrom table written ((Segments.output "@" segments).map change) := by
  induction size : segments.length using Nat.strongRecOn generalizing read written segments with
  | ind size ih =>
      subst size
      cases laid with
      | nil => exact quietFrom_nil written
      | @copied _ line rest copies later =>
          by_cases stray : isSectionSwitch line = false ∧ written = .rodata false
              ∧ (label? line).isSome = true
          · obtain ⟨stays, rfl, labels⟩ := stray
            -- In a section that both scans read, the label would not have been copied.
            have outside : read = .outside := by
              rcases related with outside | rfl
              · exact outside
              · simp [(copies.plain stays rfl).2] at labels
            subst outside
            have same : Region.outside.after line = .outside := by simp [Region.after, stays]
            rw [same] at later
            refine .stray_label keeps stays labels later clean ?_
            intro behind shorter laid clean
            exact ih behind.length (Nat.lt_succ_of_le shorter) laid (.inl rfl) clean rfl
          · refine .copied keeps copies ?_ ?_
            · intro stays rodata
              cases labels : label? line with
              | none => rfl
              | some label => exact absurd ⟨stays, rodata, by rw [labels]; rfl⟩ stray
            · exact ih rest.length (Nat.lt_add_one _) later (related.after line) clean.tail rfl
      | @anchored number line rest anchors later =>
          obtain rfl := related.rodata
          have stays := isSectionSwitch_of_isAnchor anchors
          have unlabelled : label? line = none := by
            cases labels : label? line with
            | none => rfl
            | some label => simp [isAnchor_of_label? labels] at anchors
          have region : (Region.rodata false).after line = .rodata true := by
            simp [Region.after, stays, anchors]
          have copies : (Region.rodata true).Copies line :=
            copies_of_unread (notFunction_of_stays stays) (by simp)
          refine .copied keeps copies (fun _ _ => unlabelled) ?_
          exact ih rest.length (Nat.lt_add_one _) (region ▸ later) (.inr rfl) clean.tail rfl
      | @literal literal rest next collected follows ends later =>
          obtain rfl := related.rodata
          have clean := clean.tail
          rw [source_ofLiteral, behind_literal collected, behind_written_literal collected]
            at clean
          rw [output_cons, List.map_append]
          refine .written_literal keeps collected follows ends later ?_
          exact ih rest.length (Nat.lt_add_one _) later (.inr rfl) clean rfl
      | @completed _ _ _ _ _ rest _ _ collected follows ends later =>
          have clean := clean.tail
          rw [source_ofBlock, FunctionBlock.lines_complete, behind_object collected] at clean
          rw [output_cons, List.map_append]
          refine .written_completed keeps collected follows ends later ?_
          exact ih rest.length (Nat.lt_add_one _) later (.inl rfl) clean rfl
      | @aborted _ number reason rest next object collected follows ends later =>
          have clean := clean.tail
          simp only [Segment.source, Segment.output, behind_object collected] at clean
          rw [output_cons, List.map_append]
          refine .written_object keeps collected follows (.misfit ends) later ?_
          exact ih rest.length (Nat.lt_add_one _) later (.inl rfl) clean rfl

theorem opened?_eq_some_iff {mode : Mode} {labelLine : String} {payloads : List String}
    : mode.opened? = some (labelLine, payloads)
      ↔ ∃ block : Literal,
          mode = .literal block
          ∧ block.labelLine = labelLine
          ∧ block.payloads.map Prod.fst = payloads := by
  cases mode <;> simp [Mode.opened?]

/-- A quiet scan of output notices no stray literal. Where there is one, the label line opens it and
the payload lines stay with it, so it must be settled without being resolved.
-/
theorem noStray_of_quiet (keeps : KeepsForms change) (nothing : table.matchLiteral [] = none)
    {segments : List Segment} (laid : Laid table .outside segments)
    (quiet : Quiet table 0 .outside false ((Segments.output "@" segments).map change))
    : NoStray table segments := by
  rintro before labelLine payloads rest rfl ⟨stays, labels, stores, ends⟩ - inside
  obtain ⟨label, known⟩ := Option.isSome_iff_exists.mp labels
  have formed := formed_label known stores
  have lines
      : (Segments.output "@" (before ++ (labelLine :: payloads).map .copied ++ rest)).map change
        = ((Segments.output "@" before).map change ++ labelLine :: payloads)
          ++ (Segments.output "@" rest).map change := by
    rw [output_append, output_append, output_map_copied, List.map_append, List.map_append,
      keeps.map_eq formed]
  rw [lines] at quiet
  obtain ⟨number, mode, leftAlone, stands, later⟩ := quiet.split stands_start
  -- The scan of the output stands in the literal.
  have region : regionOf ((Segments.output "@" before).map change) = .rodata false := by
    rw [← behind_outside, keeps.behind, behind_outside, inside]
  have opened := stands.opened
  rw [List.nil_append, openAt?_literal region stays labels stores] at opened
  obtain ⟨block, rfl, rfl, rfl⟩ := opened?_eq_some_iff.mp opened
  have collected : block.Collected := stands.collected
  have stored : Stores (block.payloads.map Prod.fst) block.bytes :=
    collected.stored.of_other (payload?_of_label? known)
  have remain : rest ≠ [] := by
    rintro rfl
    cases later with
    | nil closed => cases closed
  refine ⟨remain, block.bytes, stored, ?_⟩
  obtain ⟨next, starts⟩ := laid.split.starts remain
  obtain ⟨first, more, output, stops, -⟩ := laid.split.first_output keeps starts
  rw [output] at later
  cases later with
  | cons takes unresolved _ =>
      cases takes with
      | payload own _ =>
          rw [stops (ends next starts)] at own
          cases own
      | literalEnds _ _ =>
          rcases isResolved_ofLiteral.mp (unresolved _ List.mem_cons_self) with bare | unmatched
          · have bytes : block.bytes = [] := by simp [Literal.bytes, bare]
            rw [bytes, nothing]
          · exact unmatched

/-- The scan of a scan's output is quiet exactly if no stray literal is noticed. -/
theorem quiet_output_iff (keeps : KeepsForms change) (nothing : table.matchLiteral [] = none)
    {lines : List String} {segments : List Segment}
    (success : Scan.segments table lines = .ok segments)
    : Quiet table 0 .outside false ((Segments.output "@" segments).map change)
      ↔ NoStray table segments := by
  have laid := laid_segments success
  refine ⟨noStray_of_quiet keeps nothing laid, ?_⟩
  intro clean
  exact laid.quiet keeps (.inl rfl) (noStrayFrom_outside.mpr clean) 0 false

end RomStrings.Scan
