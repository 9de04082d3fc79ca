import RomStrings.Proofs.Scan.Joining

/-!
The lines of a section that is read, grouped by looking ahead. A label line takes all payload lines
right behind it, and every other line stands by itself. The scan never looks ahead, and yet it
treats such a section group by group.
-/

namespace RomStrings

open Assembly

/-- What becomes of some lines: what is written, the label that is given an address, and the counts.
-/
structure Fate where
  lines : List String
  resolution? : Option (String × Address) := none
  stats : Stats := {}

/-- What becomes of the lines of a segment. -/
def Segment.fate (mark : String) (segment : Segment) : Fate :=
  { lines := segment.output mark
    resolution? := segment.resolution?
    stats := segment.stats }

/-- Lines that all decode hold no line at fault, by induction on the lines before it. -/
theorem Stores.no_fault {number : Nat} {good others : List String} {bad : String} {bytes : Bytes}
    {fault : Scan.Error} (stored : Stores (good ++ bad :: others) bytes)
    : ¬Scan.PayloadFault number bad fault := by
  rintro ⟨payload, known, fails⟩
  induction good generalizing bytes with
  | nil =>
      cases stored with
      | other plain _ => simp [plain] at known
      | payload stores decodes _ =>
          rw [stores] at known
          cases known
          simp [Scan.payloadBytes, decodes] at fails
  | cons line rest ih =>
      cases stored with
      | other _ later => exact ih later
      | payload _ _ later => exact ih later

namespace Scan

variable {table : Rom.Table}

-----------------------------------------------------------------------------------------
-- Pieces
-----------------------------------------------------------------------------------------

/-- A piece of a section: a label line with payload lines behind it, or a line by itself. -/
inductive Piece where
  | labelled (labelLine : String) (payloads : List String)
  | single (line : String)
  deriving DecidableEq, Repr

def Piece.lines : Piece → List String
  | .labelled labelLine payloads => labelLine :: payloads
  | .single line => [line]

/-- The payload lines that stand behind a label. -/
def Piece.payloads : Piece → List String
  | .labelled _ payloads => payloads
  | .single _ => []

/-- The lines are cut into the pieces: each label line with the longest run of payload lines behind
it, and each other line by itself.
-/
inductive Cut : List String → List Piece → Prop
  | nil : Cut [] []
  | single {line lines pieces} (unlabelled : label? line = none) (rest : Cut lines pieces)
    : Cut (line :: lines) (.single line :: pieces)
  | labelled {labelLine payloads lines pieces} (labels : (label? labelLine).isSome = true)
    (stores : ∀ line ∈ payloads, isPayload line = true)
    (longest : ∀ line ∈ lines.head?, isPayload line = false) (rest : Cut lines pieces)
    : Cut (labelLine :: (payloads ++ lines)) (.labelled labelLine payloads :: pieces)

/-- The pieces of the lines, found by looking ahead from each label line. -/
def pieces : List String → List Piece
  | [] => []
  | line :: rest =>
      if (label? line).isSome then
        .labelled line (rest.takeWhile isPayload) :: pieces (rest.dropWhile isPayload)
      else
        .single line :: pieces rest
termination_by lines => lines.length
decreasing_by
  · exact Nat.lt_succ_of_le (List.dropWhile_suffix isPayload).length_le
  · exact Nat.lt_succ_self _

theorem cut_pieces (lines : List String) : Cut lines (pieces lines) := by
  fun_induction pieces lines with
  | case1 => exact .nil
  | case2 line rest labels ih =>
      have stores : ∀ line ∈ rest.takeWhile isPayload, isPayload line = true :=
        List.all_eq_true.mp List.all_takeWhile
      have longest : ∀ line ∈ (rest.dropWhile isPayload).head?, isPayload line = false := by
        intro line first
        have := List.head?_dropWhile_not isPayload rest
        simpa [Option.mem_def.mp first] using this
      have cut := Cut.labelled labels stores longest ih
      rwa [List.takeWhile_append_dropWhile] at cut
  | case3 line rest unlabelled ih => exact .single (by simpa using unlabelled) ih

/-- Lines are cut in one way only, by induction on the cut. -/
theorem Cut.unique {lines : List String} {found : List Piece} (cut : Cut lines found)
    : found = pieces lines := by
  induction cut with
  | nil => rw [pieces]
  | single unlabelled _ ih => rw [pieces, if_neg (by simp [unlabelled]), ih]
  | @labelled labelLine payloads lines _ labels stores longest _ ih =>
      have run : (payloads ++ lines).takeWhile isPayload = payloads := by
        rw [List.takeWhile_append_of_pos stores]
        cases lines with
        | nil => simp
        | cons line rest => simp [longest line rfl]
      have left : (payloads ++ lines).dropWhile isPayload = lines := by
        rw [List.dropWhile_append_of_pos stores]
        cases lines with
        | nil => simp
        | cons line rest => simp [longest line rfl]
      rw [pieces, if_pos labels, run, left, ih]

theorem cut_iff {lines : List String} {found : List Piece}
    : Cut lines found ↔ found = pieces lines :=
  ⟨Cut.unique, fun same => same ▸ cut_pieces lines⟩

-----------------------------------------------------------------------------------------
-- Payload lines that read, and the first that does not
-----------------------------------------------------------------------------------------

/-- All payload lines of the piece decode. -/
def Piece.Decodes (piece : Piece) : Prop :=
  ∃ bytes, Stores piece.payloads bytes

/-- The fault in the first payload line of the pieces that does not decode, where the given number
of lines stands before the pieces.
-/
inductive FirstFault : Nat → List Piece → Error → Prop
  | here {number labelLine good bytes bad others pieces fault} (decode : Stores good bytes)
    (faulty : PayloadFault (number + 1 + good.length + 1) bad fault)
    : FirstFault number (.labelled labelLine (good ++ bad :: others) :: pieces) fault
  | later {number piece pieces fault} (decodes : piece.Decodes)
    (rest : FirstFault (number + piece.lines.length) pieces fault)
    : FirstFault number (piece :: pieces) fault

theorem PayloadFault.unique {number : Nat} {line : String} {fault other : Error}
    (first : PayloadFault number line fault) (second : PayloadFault number line other)
    : fault = other := by
  obtain ⟨payload, stores, fails⟩ := first
  obtain ⟨again, stores', fails'⟩ := second
  rw [stores] at stores'
  cases stores'
  rw [fails] at fails'
  exact Except.error.inj fails'

/-- A line stores bytes, perhaps none, or it is at fault. -/
theorem line_stores_or_fault (number : Nat) (line : String)
    : (∃ bytes, Stores [line] bytes) ∨ ∃ fault, PayloadFault number line fault := by
  cases stores : payload? line with
  | none => exact .inl ⟨[], .other stores .nil⟩
  | some payload =>
      cases decodes : payload.bytes with
      | error error =>
          have fails : payloadBytes number line payload
              = .error (.escape number line payload.column error) := by
            simp [payloadBytes, decodes]
          exact .inr ⟨_, payload, stores, fails⟩
      | ok bytes => exact .inl ⟨_, .payload stores decodes .nil⟩

/-- Lines all decode, or there is a first one at fault, by induction on them. -/
theorem stores_or_fault (number : Nat) (lines : List String)
    : (∃ bytes, Stores lines bytes)
      ∨ ∃ good bytes bad others fault,
          lines = good ++ bad :: others
          ∧ Stores good bytes
          ∧ PayloadFault (number + good.length + 1) bad fault := by
  induction lines generalizing number with
  | nil => exact .inl ⟨[], .nil⟩
  | cons line rest ih =>
      rcases line_stores_or_fault (number + 1) line with ⟨own, first⟩ | ⟨fault, faulty⟩
      · rcases ih (number + 1)
          with ⟨bytes, later⟩ | ⟨good, bytes, bad, others, fault, rfl, later, faulty⟩
        · exact .inl ⟨_, first.append later⟩
        · refine .inr ⟨line :: good, _, bad, others, fault, rfl, first.append later, ?_⟩
          rwa [Nat.add_right_comm number 1] at faulty
      · exact .inr ⟨[], [], line, rest, fault, rfl, .nil, faulty⟩

/-- There is one first line at fault: of two, the later one would stand behind the earlier one. -/
theorem fault_unique {number : Nat} {good front others rest : List String} {bad line : String}
    {bytes earlier : Bytes} {fault other : Error}
    (same : good ++ bad :: others = front ++ line :: rest)
    (decode : Stores good bytes) (faulty : PayloadFault (number + good.length + 1) bad fault)
    (also : Stores front earlier) (again : PayloadFault (number + front.length + 1) line other)
    : fault = other := by
  rcases List.append_eq_append_iff.mp same
    with ⟨between, rfl, split⟩ | ⟨between, rfl, split⟩
  · cases between with
    | nil =>
        cases split
        rw [List.append_nil] at again
        exact faulty.unique again
    | cons first between =>
        cases split
        exact absurd faulty also.no_fault
  · cases between with
    | nil =>
        cases split
        rw [List.append_nil] at faulty
        exact faulty.unique again
    | cons first between =>
        cases split
        exact absurd again decode.no_fault

theorem FirstFault.unique {number : Nat} {pieces : List Piece} {fault other : Error}
    (first : FirstFault number pieces fault) (second : FirstFault number pieces other)
    : fault = other := by
  induction first with
  | @here number labelLine good _ bad others later _ decode faulty =>
      generalize whole : Piece.labelled labelLine (good ++ bad :: others) :: later = all at second
      cases second with
      | here also again =>
          obtain ⟨same, -⟩ := List.cons.inj whole
          obtain ⟨-, same⟩ := Piece.labelled.inj same
          exact fault_unique same decode faulty also again
      | later decodes _ =>
          cases whole
          obtain ⟨bytes, stored⟩ := decodes
          exact absurd faulty stored.no_fault
  | @later number piece later _ decodes _ ih =>
      generalize whole : piece :: later = all at second
      cases second with
      | here _ faulty =>
          cases whole
          obtain ⟨bytes, stored⟩ := decodes
          exact absurd faulty stored.no_fault
      | later _ rest =>
          cases whole
          exact ih rest

/-- Where all pieces decode, none is at fault. -/
theorem FirstFault.not_decode {number : Nat} {pieces : List Piece} {fault : Error}
    (first : FirstFault number pieces fault)
    : ¬∀ piece ∈ pieces, piece.Decodes := by
  intro decode
  induction first with
  | here _ faulty =>
      obtain ⟨⟨bytes, stored⟩, -⟩ := List.forall_mem_cons.mp decode
      exact absurd faulty stored.no_fault
  | later _ _ ih => exact ih (List.forall_mem_cons.mp decode).2

-----------------------------------------------------------------------------------------
-- What becomes of a piece
-----------------------------------------------------------------------------------------

/-- A label with payload lines is looked up by all the bytes that these store: it is taken from ROM
or counted as missing there. Every other piece is copied.
-/
inductive Piece.Fares (table : Rom.Table) (mark : String) : Piece → Fate → Prop
  | single {line} : Fares table mark (.single line) { lines := [line] }
  | bare {labelLine} : Fares table mark (.labelled labelLine []) { lines := [labelLine] }
  | unmatched {labelLine payloads bytes} (data : payloads ≠ []) (stores : Stores payloads bytes)
    (absent : table.matchLiteral bytes = none)
    : Fares table mark (.labelled labelLine payloads)
        { lines := labelLine :: payloads, stats := { unmatched := 1 } }
  | resolved {labelLine payloads bytes label found} (data : payloads ≠ [])
    (stores : Stores payloads bytes) (labels : label? labelLine = some label)
    (matched : table.matchLiteral bytes = some found)
    : Fares table mark (.labelled labelLine payloads)
        { lines :=
            (labelLine :: payloads).map (fun line => mark ++ " " ++ line)
              ++ [label ++ " = " ++ Address.text found.address]
          resolution? := some (label, found.address)
          stats :=
            match found.kind with
            | .exact => { exactMatches := 1, bytesSaved := bytes.length }
            | .suffix => { suffixMatches := 1, bytesSaved := bytes.length } }

/-- The segment that a scan settles for the piece. -/
inductive Piece.Settles (table : Rom.Table) : Piece → Segment → Prop
  | single {line} : Settles table (.single line) (.copied line)
  | labelled {literal : Literal} (collected : literal.Collected)
    : Settles table (.labelled literal.labelLine (literal.payloads.map Prod.fst))
        (Segment.ofLiteral table literal)

/-- Such a segment is the piece's fate, by cases on its payload lines and on what is found. -/
theorem Piece.Settles.fares {piece : Piece} {segment : Segment}
    (settles : piece.Settles table segment) (mark : String)
    : piece.Fares table mark (segment.fate mark) := by
  cases settles with
  | single => exact .single
  | @labelled literal collected =>
      obtain ⟨label, number, labelLine, payloads⟩ := literal
      cases payloads with
      | nil => exact .bare
      | cons pair rest =>
          have stores := collected.stored.of_other (payload?_of_label? collected.labels)
          have data : (pair :: rest).map Prod.fst ≠ [] := by simp
          simp only [Segment.ofLiteral, List.isEmpty_cons, Bool.false_eq_true, if_false,
            Segment.ofBlock, Block.find, Literal.block]
          cases matched : table.matchLiteral _ with
          | none => exact .unmatched data stores matched
          | some found =>
              obtain ⟨address, kind, romString⟩ := found
              cases kind with
              | exact => exact .resolved data stores collected.labels matched
              | suffix => exact .resolved data stores collected.labels matched

-----------------------------------------------------------------------------------------
-- Runs over pieces
-----------------------------------------------------------------------------------------

/-- An open literal takes payload lines that decode, by induction on them. -/
theorem reads_payloads (table : Rom.Table) {pairs : List (String × Bytes)}
    (stores
      : ∀ pair ∈ pairs, ∃ payload, payload? pair.1 = some payload ∧ payload.bytes = .ok pair.2)
    {scanner : Scanner} {literal : Literal} (mode : scanner.mode = .literal literal)
    : ∃ last,
        Reads table scanner (pairs.map Prod.fst) [] last
        ∧ last.mode = .literal { literal with payloads := literal.payloads ++ pairs }
        ∧ last.leftAlone = scanner.leftAlone := by
  induction pairs generalizing scanner literal with
  | nil => exact ⟨scanner, .nil, by simpa using mode, rfl⟩
  | cons pair rest ih =>
      obtain ⟨⟨payload, known, decodes⟩, others⟩ := List.forall_mem_cons.mp stores
      let taken : Taken :=
        { mode := .literal (literal.add pair.1 pair.2)
          leftAlone := scanner.leftAlone
          settled := [] }
      have takes
          : Takes table (scanner.linesRead + 1) scanner.leftAlone pair.1 scanner.mode taken := by
        rw [mode]
        exact .payload known decodes
      have opened : (taken.step scanner).after.mode = .literal (literal.add pair.1 pair.2) := rfl
      obtain ⟨last, run, stands, alone⟩ := ih others opened
      exact ⟨last, .cons takes.feed run, by simpa [Literal.add] using stands, alone⟩

/-- In a section that is read, a label line opens a literal, which takes the payload lines behind it
if they all decode.
-/
theorem reads_literal (table : Rom.Table) {labelLine label : String} {payloads : List String}
    {bytes : Bytes} (stays : isSectionSwitch labelLine = false)
    (labels : label? labelLine = some label)
    (stores : ∀ line ∈ payloads, isPayload line = true) (stored : Stores payloads bytes)
    {scanner : Scanner} (rodata : scanner.mode = .rodata) (read : scanner.leftAlone = false)
    : ∃ last literal,
        Reads table scanner (labelLine :: payloads) [] last
        ∧ last.mode = .literal literal
        ∧ last.leftAlone = false
        ∧ literal.Collected
        ∧ literal.labelLine = labelLine
        ∧ literal.payloads.map Prod.fst = payloads := by
  obtain ⟨pairs, rfl, -, decode⟩ := pairs_of_stores stored stores
  let literal : Literal := { label, number := scanner.linesRead + 1, labelLine }
  let taken : Taken := { mode := .literal literal, leftAlone := false, settled := [] }
  have takes
      : Takes table (scanner.linesRead + 1) scanner.leftAlone labelLine scanner.mode taken := by
    rw [rodata, read]
    exact .label stays rfl (isAnchor_of_label? labels) labels
  have opened : (taken.step scanner).after.mode = .literal literal := rfl
  obtain ⟨last, run, mode, alone⟩ := reads_payloads table decode opened
  exact ⟨last, { literal with payloads := pairs }, .cons takes.feed run, mode, alone,
    { stays, labels, stores := decode }, rfl, rfl⟩

/-- The outcome of a scan that goes on with pieces and one more line: each piece is settled and the
line is copied, or the first payload line that does not decode is at fault.
-/
inductive PiecesOutcome (table : Rom.Table) (number : Nat) (pieces : List Piece) (last : String)
    : Except Error (List Segment) → Prop
  | ok {own} (decode : ∀ piece ∈ pieces, piece.Decodes)
    (settles : List.Forall₂ (Piece.Settles table) pieces own)
    : PiecesOutcome table number pieces last (.ok (own ++ [.copied last]))
  | error {fault} (first : FirstFault number pieces fault)
    : PiecesOutcome table number pieces last (.error fault)

theorem PiecesOutcome.cons {number : Nat} {piece : Piece} {pieces : List Piece} {last : String}
    {segment : Segment} {outcome : Except Error (List Segment)} (decodes : piece.Decodes)
    (settles : piece.Settles table segment)
    (later : PiecesOutcome table (number + piece.lines.length) pieces last outcome)
    : PiecesOutcome table number (piece :: pieces) last (outcome.map ([segment] ++ ·)) := by
  cases later with
  | ok decode others =>
      exact .ok (List.forall_mem_cons.mpr ⟨decodes, decode⟩) (.cons settles others)
  | error first => exact .error (.later decodes first)

/-- A line that leaves read-only data for no other section of it is copied. -/
theorem finish_switch {scanner : Scanner} {last : String} (rodata : scanner.mode = .rodata)
    (switches : isSectionSwitch last = true) (notFunction : isFunctionSection last = false)
    (notRodata : isRodataSection last = false) (latest : String)
    : scanner.finish table latest [last] = .ok [.copied last] := by
  have takes : Takes table (scanner.linesRead + 1) scanner.leftAlone last scanner.mode
      { mode := .outside, leftAlone := scanner.leftAlone, settled := [.copied last] } := by
    rw [rodata]
    exact .sectionSwitch switches (.outside notFunction notRodata)
  rw [Scanner.finish, takes.feed]
  rfl

/-- A label line with payload lines that all decode is settled by the line behind them, and the scan
goes on in the section.
-/
theorem finish_labelled {labelLine label : String} {payloads : List String} {bytes : Bytes}
    (stays : isSectionSwitch labelLine = false) (labels : label? labelLine = some label)
    (stores : ∀ line ∈ payloads, isPayload line = true) (stored : Stores payloads bytes)
    {scanner : Scanner} (rodata : scanner.mode = .rodata) (read : scanner.leftAlone = false)
    {next : String} (ends : payload? next = none) (latest : String) (rest : List String)
    : ∃ (segment : Segment) (after : Scanner),
        (Piece.labelled labelLine payloads).Settles table segment
        ∧ after.mode = .rodata
        ∧ after.leftAlone = false
        ∧ after.linesRead = scanner.linesRead + (labelLine :: payloads).length
        ∧ scanner.finish table latest (labelLine :: payloads ++ next :: rest)
          = (after.finish table latest (next :: rest)).map ([segment] ++ ·) := by
  obtain ⟨middle, literal, run, mode, alone, collected, rfl, rfl⟩ :=
    reads_literal table stays labels stores stored rodata read
  refine ⟨_, { middle with mode := .rodata }, .labelled collected, rfl, alone, run.linesRead, ?_⟩
  rw [run.finish_pending, finish_literalEnds mode ends]
  rfl

/-- Behind a label line, the first payload line that does not decode ends the scan. -/
theorem finish_faulty {labelLine label : String} {good : List String} {bytes : Bytes}
    {bad : String} {fault : Error} (stays : isSectionSwitch labelLine = false)
    (labels : label? labelLine = some label) (stores : ∀ line ∈ good, isPayload line = true)
    (stored : Stores good bytes) {scanner : Scanner} (rodata : scanner.mode = .rodata)
    (read : scanner.leftAlone = false)
    (faulty : PayloadFault (scanner.linesRead + 1 + good.length + 1) bad fault)
    (latest : String) (rest : List String)
    : scanner.finish table latest (labelLine :: good ++ bad :: rest) = .error fault := by
  obtain ⟨middle, literal, run, mode, -⟩ :=
    reads_literal table stays labels stores stored rodata read
  have number : middle.linesRead = scanner.linesRead + 1 + good.length := by
    rw [run.linesRead, List.length_cons]
    omega
  have fails : middle.feed table bad = .error fault := by
    refine feed_eq_error_iff.mpr ⟨by simp [mode, Mode.decodes], ?_⟩
    rwa [number]
  rw [run.finish_pending, Scanner.finish, fails]

/-- A section that is read is scanned piece by piece up to the line that ends it, by induction on
the pieces. A literal takes the payload lines of its piece, and the line behind them settles it.
-/
theorem finish_pieces {lines : List String} {pieces : List Piece} (cut : Cut lines pieces)
    (plain : ∀ line ∈ lines, isSectionSwitch line = false ∧ isAnchor line = false)
    {last : String} (switches : isSectionSwitch last = true)
    (notFunction : isFunctionSection last = false) (notRodata : isRodataSection last = false)
    {scanner : Scanner} (rodata : scanner.mode = .rodata) (read : scanner.leftAlone = false)
    (latest : String)
    : PiecesOutcome table scanner.linesRead pieces last
        (scanner.finish table latest (lines ++ [last])) := by
  induction cut generalizing scanner latest with
  | nil =>
      rw [List.nil_append, finish_switch rodata switches notFunction notRodata]
      exact .ok (List.forall_mem_nil _) .nil
  | @single line lines pieces unlabelled _ ih =>
      obtain ⟨⟨stays, unanchored⟩, others⟩ := List.forall_mem_cons.mp plain
      let taken : Taken := { mode := .rodata, leftAlone := false, settled := [.copied line] }
      have takes
          : Takes table (scanner.linesRead + 1) scanner.leftAlone line scanner.mode taken := by
        rw [rodata, read]
        exact .other stays rfl unanchored unlabelled
      rw [List.cons_append, Scanner.finish, takes.feed]
      have still : (taken.step scanner).after.mode = .rodata := rfl
      exact .cons ⟨[], .nil⟩ .single (ih others still rfl line)
  | @labelled labelLine payloads lines pieces labels stores longest _ ih =>
      obtain ⟨⟨stays, -⟩, others⟩ := List.forall_mem_cons.mp plain
      obtain ⟨-, others⟩ := List.forall_mem_append.mp others
      obtain ⟨label, labels⟩ := Option.isSome_iff_exists.mp labels
      rw [← List.cons_append, List.append_assoc]
      rcases stores_or_fault (scanner.linesRead + 1) payloads
        with ⟨bytes, stored⟩ | ⟨good, bytes, bad, rest, fault, rfl, stored, faulty⟩
      · obtain ⟨next, rest, follows, ends⟩ :
            ∃ next rest, lines ++ [last] = next :: rest ∧ payload? next = none := by
          cases lines with
          | nil => exact ⟨last, [], rfl, payload?_of_isDirective (by decide) switches⟩
          | cons line _ => exact ⟨line, _, rfl, by simpa [isPayload] using longest line rfl⟩
        obtain ⟨segment, after, settles, still, unread, number, outcome⟩ :=
          finish_labelled stays labels stores stored rodata read ends latest rest
        have later := ih others still unread latest
        rw [number, follows] at later
        rw [follows, outcome]
        exact .cons ⟨bytes, stored⟩ settles later
      · have known : ∀ line ∈ good, isPayload line = true :=
          fun line member => stores line (List.mem_append_left _ member)
        have ended
            : scanner.finish table latest
                (labelLine :: (good ++ bad :: (rest ++ (lines ++ [last]))))
              = .error fault :=
          finish_faulty stays labels known stored rodata read faulty latest _
        rw [List.cons_append, List.append_assoc, List.cons_append, ended]
        exact .error (.here stored faulty)

-----------------------------------------------------------------------------------------
-- A section by itself
-----------------------------------------------------------------------------------------

/-- What is written for the segments is the first line, what the pieces come to, and the last line.
Only the pieces resolve labels and count.
-/
structure WrittenAs (mark first last : String) (fates : List Fate) (segments : List Segment)
    : Prop where
  lines : Segments.output mark segments = first :: (fates.flatMap Fate.lines ++ [last])
  resolution
    : Segments.resolution segments = Resolution.ofPairs (fates.filterMap Fate.resolution?)
  stats : Segments.stats segments = fates.foldl (fun sum fate => sum + fate.stats) {}

/-- The outcome for a first line, the lines of a section and a last line is that of the pieces. -/
structure ScansByPieces (table : Rom.Table) (mark first last : String) (lines : List String)
    (outcome : Except Error (List Segment))
    : Prop where
  cut : ∀ found, Cut lines found ↔ found = pieces lines
  succeeds : (∃ segments, outcome = .ok segments) ↔ ∀ piece ∈ pieces lines, piece.Decodes
  scanned
    : ∀ segments, outcome = .ok segments
        → ∃ fates,
            List.Forall₂ (Piece.Fares table mark) (pieces lines) fates
            ∧ WrittenAs mark first last fates segments
  /-- One line stands before the pieces. -/
  fails : ∀ fault, outcome = .error fault ↔ FirstFault 1 (pieces lines) fault

/-- Segments of pieces, between two copied lines. -/
theorem writtenAs_of_settles (mark first last : String) {pieces : List Piece}
    {own : List Segment} (settles : List.Forall₂ (Piece.Settles table) pieces own)
    : ∃ fates,
        List.Forall₂ (Piece.Fares table mark) pieces fates
        ∧ WrittenAs mark first last fates (.copied first :: (own ++ [.copied last])) := by
  refine ⟨own.map (Segment.fate mark), ?_, ?_⟩
  · rw [List.forall₂_map_right_iff]
    exact settles.imp fun _ _ settles => settles.fares mark
  · refine { lines := ?_, resolution := ?_, stats := ?_ }
    · rw [List.flatMap_map, Segments.output, List.flatMap_cons, List.flatMap_append]
      rfl
    · have none : [Segment.copied last].filterMap Segment.resolution? = [] := rfl
      rw [Segments.resolution, List.filterMap_cons, List.filterMap_append, none, List.append_nil,
        List.filterMap_map]
      rfl
    · have none : Segments.stats [.copied last] = {} := rfl
      rw [Segments.stats_cons, Segments.stats_append, none, Stats.add_zero, List.foldl_map]
      exact Stats.zero_add _

/-- A section without anchors is scanned as if each label line were read together with all payload
lines right behind it.
-/
theorem scan_by_pieces (options : Options) {lines : List String}
    (plain : ∀ line ∈ lines, isSectionSwitch line = false ∧ isAnchor line = false)
    : ScansByPieces table options.comment "\t.section\t.rodata" "\t.text" lines
        (Scan.segments table ("\t.section\t.rodata" :: (lines ++ ["\t.text"]))) := by
  let taken : Taken :=
    { mode := .rodata, leftAlone := false, settled := [.copied "\t.section\t.rodata"] }
  have takes : Takes table 1 false "\t.section\t.rodata" .outside taken :=
    .rodataSection (by decide +kernel) (by decide +kernel)
  have fed : Scanner.feed table {} "\t.section\t.rodata" = .ok (taken.step {}) := takes.feed
  have rodata : (taken.step {}).after.mode = .rodata := rfl
  have outcome
      : PiecesOutcome table 1 (pieces lines) "\t.text"
          ((taken.step {}).after.finish table "\t.section\t.rodata" (lines ++ ["\t.text"])) :=
    finish_pieces (cut_pieces lines) plain (by decide +kernel) (by decide +kernel)
      (by decide +kernel) rodata rfl _
  rw [segments_eq_finish, Scanner.finish, fed]
  simp only
  generalize (taken.step {}).after.finish table _ (lines ++ ["\t.text"]) = result at outcome ⊢
  cases outcome with
  | @ok own decode settles =>
      refine {
        cut := fun _ => cut_iff
        succeeds := ⟨fun _ => decode, fun _ => ⟨_, rfl⟩⟩
        scanned := ?_
        fails := fun fault => ⟨fun same => ?_, fun first => absurd decode first.not_decode⟩
      }
      · intro segments same
        cases same
        exact writtenAs_of_settles options.comment _ _ settles
      · cases same
  | @error fault first =>
      refine {
        cut := fun _ => cut_iff
        succeeds := ⟨?_, fun decode => absurd decode first.not_decode⟩
        scanned := fun _ same => ?_
        fails := fun other => ⟨fun same => ?_, fun second => ?_⟩
      }
      · rintro ⟨_, same⟩
        cases same
      · cases same
      · cases same
        exact first
      · rw [first.unique second]
        rfl

/-- A payload before any label is not read, so its unknown escape is no fault. Of two labels in a
row the second one has the string, which stands on two lines.
-/
theorem scan_by_pieces_of_adjacent_labels
    : let table := Rom.Table.ofImage [104, 105, 0] 4096
      let lines :=
        ["\t.ascii\t\"\\q\"", ".LC0:", ".LC1:", "\t.ascii\t\"h\"", "\t.string\t\"i\"",
          "\t.align\t2", ".LC2:", "\t.string\t\"i\"", ".LC3:", "\t.string\t\"no\""]
      let whole := "\t.section\t.rodata" :: (lines ++ ["\t.text"])
      (∀ line ∈ lines, isSectionSwitch line = false ∧ isAnchor line = false)
      ∧ (Scan.segments table whole).toOption.map Segments.resolution
        = some [(".LC1", 4096), (".LC2", 4097)]
      ∧ (Scan.segments table whole).toOption.map Segments.stats
        = some { exactMatches := 1, suffixMatches := 1, unmatched := 1, bytesSaved := 5 }
      ∧ ScansByPieces table "@" "\t.section\t.rodata" "\t.text" lines
          (Scan.segments table whole) := by
  intro table lines whole
  have plain : ∀ line ∈ lines, isSectionSwitch line = false ∧ isAnchor line = false := by
    decide +kernel
  exact ⟨plain, by decide +kernel, by decide +kernel, scan_by_pieces {} plain⟩

end Scan

end RomStrings
