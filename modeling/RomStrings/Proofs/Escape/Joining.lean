import RomStrings.Proofs.Escape.Grammar
import RomStrings.Proofs.Scan.Lookahead

/-!
Payloads in parts. Where the last token of the first part does not go on into the second one, the
whole is read as its parts are. So a string may be cut into payload lines at any such place.
-/

namespace RomStrings

open Assembly

namespace Escape

-----------------------------------------------------------------------------------------
-- Two parts
-----------------------------------------------------------------------------------------

/-- The last token of the first text, if there is one, ends before the second text. -/
def Parted (first second : List Char) : Prop :=
  ∀ ts, Splits first ts [] → ∀ token ∈ ts.getLast?, token.EndsBefore second

/-- Behind a first text with the bytes, the second text is read as if it stood by itself. -/
structure Joins (first second : List Char) (bytes : Bytes) : Prop where
  succeeds : ∀ later, decode second = .ok later → decode (first ++ second) = .ok (bytes ++ later)
  fails
    : ∀ error,
        decode second = .error error
        → decode (first ++ second) = .error { error with offset := first.length + error.offset }

theorem Parted.joins {first second : List Char} {bytes : Bytes} (parted : Parted first second)
    (decodes : decode first = .ok bytes)
    : Joins first second bytes := by
  obtain ⟨ts, split, rfl⟩ := decode_eq_ok_iff.mp decodes
  have whole := split.join (parted ts split)
  constructor
  · intro later reads
    obtain ⟨us, rest, rfl⟩ := decode_eq_ok_iff.mp reads
    apply decode_eq_ok_iff.mpr
    exact ⟨ts ++ us, whole.append rest, List.flatMap_append⟩
  · intro error fails
    obtain ⟨us, behind, rest, stop, same⟩ := decode_eq_error_iff.mp fails
    apply decode_eq_error_iff.mpr
    refine ⟨ts ++ us, behind, whole.append rest, stop, ?_⟩
    have length : first.length = (spelled ts).length := by
      simpa using congrArg List.length split.eq_append
    rw [spelled, List.flatMap_append, List.length_append, length]
    exact congrArg _ same

/-- The last token may be looked up among those that are read. -/
theorem parted_of_tokens {first second : List Char} {ts : List Token}
    (read : tokens first = .ok ts)
    (ends : ∀ token ∈ ts.getLast?, ∀ c ∈ second.head?, token.takes c = false)
    : Parted first second := by
  intro own split
  rw [split.unique (tokensFrom_eq_ok_iff.mp read)]
  exact ends

-----------------------------------------------------------------------------------------
-- More parts
-----------------------------------------------------------------------------------------

/-- Each of the texts is parted from all that stands before it. -/
def PartedBehind : List Char → List (List Char) → Prop
  | _, [] => True
  | before, text :: rest => Parted before text ∧ PartedBehind (before ++ text) rest

/-- Parted texts are read as one, by induction on those that are still to be read. -/
theorem decode_flatten {before : List Char} {bytes : Bytes} (decodes : decode before = .ok bytes)
    {texts : List (List Char)} {parts : List Bytes}
    (each : List.Forall₂ (fun text part => decode text = .ok part) texts parts)
    (parted : PartedBehind before texts)
    : decode (before ++ texts.flatten) = .ok (bytes ++ parts.flatten) := by
  induction each generalizing before bytes with
  | nil => simpa using decodes
  | @cons text part texts parts reads _ ih =>
      obtain ⟨first, later⟩ := parted
      have next := (first.joins decodes).succeeds part reads
      rw [List.flatten_cons, List.flatten_cons, ← List.append_assoc, ← List.append_assoc]
      exact ih next later

-----------------------------------------------------------------------------------------
-- Payload lines
-----------------------------------------------------------------------------------------

/-- The line stores the text, and no zero byte of its own. -/
def StoresText (line : String) (text : List Char) : Prop :=
  ∃ payload,
    payload? line = some payload ∧ payload.directive = "ascii" ∧ payload.escaped = text

theorem bytes_of_ascii {payload : Payload} (plain : payload.directive = "ascii")
    : payload.bytes = decode payload.escaped := by
  have none : terminatedDirectives.contains "ascii" = false := by decide
  simp only [Payload.bytes, plain, none, Bool.false_eq_true, if_false]
  cases decode payload.escaped <;> rfl

/-- Lines whose texts all decode store bytes each, by induction on them. -/
theorem exists_pairs {lines : List String} {texts : List (List Char)}
    (stores : List.Forall₂ StoresText lines texts)
    (decodes : ∀ text ∈ texts, ∃ bytes, decode text = .ok bytes)
    : ∃ pairs : List (String × Bytes),
        pairs.map Prod.fst = lines
        ∧ List.Forall₂ (fun text part => decode text = .ok part) texts (pairs.map Prod.snd)
        ∧ ∀ pair ∈ pairs, ∃ payload,
            payload? pair.1 = some payload ∧ payload.bytes = .ok pair.2 := by
  induction stores with
  | nil => exact ⟨[], rfl, .nil, by simp⟩
  | @cons line text lines texts first _ ih =>
      obtain ⟨payload, known, plain, rfl⟩ := first
      obtain ⟨⟨bytes, reads⟩, others⟩ := List.forall_mem_cons.mp decodes
      obtain ⟨pairs, rfl, each, stored⟩ := ih others
      have own : payload.bytes = .ok bytes := (bytes_of_ascii plain).trans reads
      refine ⟨(line, bytes) :: pairs, rfl, .cons reads each, ?_⟩
      exact List.forall_mem_cons.mpr ⟨⟨payload, known, own⟩, stored⟩

/-- The open literal takes the lines, and its bytes are those of the texts read as one. -/
def CollectsAsOne (table : Rom.Table) (scanner : Scan.Scanner) (literal : Literal)
    (lines : List String) (texts : List (List Char))
    : Prop :=
  ∃ last built,
    Scan.Reads table scanner lines [] last
    ∧ last.mode = .literal built
    ∧ built.lines = literal.lines ++ lines
    ∧ decode texts.flatten = .ok built.bytes

theorem collectsAsOne_of_parted (table : Rom.Table) {scanner : Scan.Scanner} {literal : Literal}
    (opened : scanner.mode = .literal literal) (fresh : literal.payloads = [])
    {lines : List String} {texts : List (List Char)}
    (stores : List.Forall₂ StoresText lines texts)
    (decodes : ∀ text ∈ texts, ∃ bytes, decode text = .ok bytes)
    (parted : PartedBehind [] texts)
    : CollectsAsOne table scanner literal lines texts := by
  obtain ⟨pairs, rfl, each, stored⟩ := exists_pairs stores decodes
  obtain ⟨last, run, mode, -⟩ := Scan.reads_payloads table stored opened
  have start : decode [] = .ok [] := decode_eq_ok_iff.mpr ⟨[], .nil, rfl⟩
  refine ⟨last, _, run, mode, ?_, ?_⟩
  · simp [Literal.lines, fresh]
  · have whole := decode_flatten start each parted
    simpa [Literal.bytes, fresh, List.flatMap_def] using whole

/-- A payload is read as its parts are, wherever it is parted, and so a literal has the same bytes
on however many lines it stands.
-/
theorem decode_joined
    : (∀ first second bytes,
        decode first = .ok bytes → Parted first second → Joins first second bytes)
      ∧ ∀ (table : Rom.Table) (scanner : Scan.Scanner) (literal : Literal) (lines : List String)
          (texts : List (List Char)),
          scanner.mode = .literal literal
          → literal.payloads = []
          → List.Forall₂ StoresText lines texts
          → (∀ text ∈ texts, ∃ bytes, decode text = .ok bytes)
          → PartedBehind [] texts
          → CollectsAsOne table scanner literal lines texts := by
  constructor
  · exact fun _ _ _ decodes parted => parted.joins decodes
  · intro table scanner literal lines texts opened fresh stores decodes parted
    exact collectsAsOne_of_parted table opened fresh stores decodes parted

/-- Short escapes are closed before characters that they cannot take: an octal one before an eight,
a hexadecimal one before a `g`. The empty text between them opens none.
-/
theorem decode_joined_behind_short_escapes
    : let first := ['a', '\\', '1']
      let faulty := ['8', '\\', 'q']
      let texts := [first, [], ['8', '\\', 'x', '4'], ['g', '\\', '0', '0', '0']]
      let lines :=
        ["\t.ascii\t\"a\\1\"", "\t.ascii\t\"\"", "\t.ascii\t\"8\\x4\"", " .ascii \"g\\000\""]
      let literal : Literal := { label := ".LC0", number := 2, labelLine := ".LC0:" }
      let scanner : Scan.Scanner := { mode := .literal literal, linesRead := 2 }
      decode first = .ok [0x61, 0x01]
      ∧ Parted first faulty
      ∧ Joins first faulty [0x61, 0x01]
      ∧ List.Forall₂ StoresText lines texts
      ∧ PartedBehind [] texts
      ∧ CollectsAsOne { base := 0, size := 0, chunks := [] } scanner literal lines texts := by
  intro first faulty texts lines literal scanner
  have decodes : decode first = .ok [0x61, 0x01] := by decide +kernel
  have short : tokens first = .ok [.char 'a', .octal ['1']] := by decide +kernel
  have apart : Parted first faulty := by
    apply parted_of_tokens short
    rintro _ ⟨⟩ _ ⟨⟩
    rfl
  have stores : List.Forall₂ StoresText lines texts := by
    refine .cons ?_ (.cons ?_ (.cons ?_ (.cons ?_ .nil)))
    all_goals exact ⟨⟨"ascii", _, 10⟩, by decide +kernel, rfl, rfl⟩
  have each : ∀ text ∈ texts, ∃ bytes, decode text = .ok bytes := by
    simp only [texts, List.forall_mem_cons]
    refine ⟨⟨_, decodes⟩, ⟨[], ?_⟩, ⟨[0x38, 0x04], ?_⟩, ⟨[0x67, 0x00], ?_⟩, nofun⟩ <;>
      decide +kernel
  have parted : PartedBehind [] texts := by
    have none : tokens [] = .ok [] := by decide +kernel
    have longer : tokens (first ++ [] ++ ['8', '\\', 'x', '4'])
        = .ok [.char 'a', .octal ['1'], .char '8', .hex 'x' ['4']] := by
      decide +kernel
    refine ⟨parted_of_tokens none nofun, parted_of_tokens short ?_, parted_of_tokens short ?_,
      parted_of_tokens longer ?_, trivial⟩
    · exact fun _ _ => nofun
    all_goals
      rintro _ ⟨⟩ _ ⟨⟩
      rfl
  obtain ⟨two, many⟩ := decode_joined
  exact ⟨decodes, apart, two first faulty _ decodes apart, stores, parted,
    many _ scanner literal lines texts rfl rfl stores each parted⟩

end Escape

end RomStrings
