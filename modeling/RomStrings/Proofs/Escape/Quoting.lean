import RomStrings.Proofs.Assembly.Payloads
import RomStrings.Proofs.Escape.Grammar
import RomStrings.Proofs.Scan.Faults

/-!
Quoted text is read twice: once to find the quote that closes it, in units of one or two characters,
and once to find its bytes, in tokens that may be longer. Every token is made of whole units, so the
escapes of the second reading are the pairs of the first one.
-/

namespace RomStrings

open Text

namespace Assembly

-----------------------------------------------------------------------------------------
-- Units of quoted text
-----------------------------------------------------------------------------------------

/-- What the search for the closing quote takes at once: a character by itself, or a backslash with
the character behind it.
-/
inductive QuotedUnit where
  | plain (c : Char)
  | pair (c : Char)
  deriving DecidableEq, Repr

def QuotedUnit.spelling : QuotedUnit → List Char
  | .plain c => [c]
  | .pair c => ['\\', c]

/-- What the units are written as. -/
def written (units : List QuotedUnit) : List Char :=
  units.flatMap QuotedUnit.spelling

/-- The text is made of the units. A quote or a backslash stands in a pair only, and a line feed by
itself only.
-/
inductive UnitsOf : List Char → List QuotedUnit → Prop
  | nil : UnitsOf [] []
  | plain {c text units} (quote : c ≠ '"') (escape : c ≠ '\\') (rest : UnitsOf text units)
    : UnitsOf (c :: text) (.plain c :: units)
  | pair {c text units} (feed : c ≠ '\n') (rest : UnitsOf text units)
    : UnitsOf ('\\' :: c :: text) (.pair c :: units)

namespace UnitsOf

variable {text : List Char} {units : List QuotedUnit}

theorem eq_written (made : UnitsOf text units) : text = written units := by
  induction made with
  | nil => rfl
  | plain _ _ _ ih | pair _ _ ih => rw [ih]; rfl

/-- A text is made of units in one way, by induction on them. -/
theorem unique {others : List QuotedUnit} (first : UnitsOf text units)
    (second : UnitsOf text others)
    : units = others := by
  induction first generalizing others with
  | nil => cases second; rfl
  | plain _ escape _ ih =>
      cases second with
      | plain _ _ rest => rw [ih rest]
      | pair _ _ => exact absurd rfl escape
  | pair _ _ ih =>
      cases second with
      | plain _ escape _ => exact absurd rfl escape
      | pair _ rest => rw [ih rest]

/-- Behind units comes the quote that closes the text, by induction on them. -/
theorem quotedBody?_eq (made : UnitsOf text units) (tail : List Char)
    : quotedBody? (text ++ '"' :: tail) = some (text, tail) := by
  induction made with
  | nil => rfl
  | plain _ escape _ ih => simp [quotedBody?, escape, ih]
  | pair feed _ ih => simp [quotedBody?, feed, ih]

end UnitsOf

/-- The text before the closing quote is made of units, by induction on the text as it is read. -/
theorem exists_unitsOf {text body tail : List Char} (found : quotedBody? text = some (body, tail))
    : ∃ units, UnitsOf body units := by
  induction text using quotedBody?.induct generalizing body with
  | case1 => cases found
  | case2 rest =>
      cases found
      exact ⟨[], .nil⟩
  | case3 rest => simp [quotedBody?] at found
  | case4 c rest feed ih =>
      simp only [quotedBody?, feed, if_false, Option.map_eq_some_iff] at found
      obtain ⟨⟨inner, after⟩, read, same⟩ := found
      cases same
      obtain ⟨units, made⟩ := ih read
      exact ⟨.pair c :: units, .pair feed made⟩
  | case5 => cases found
  | case6 c rest quote escape single ih =>
      simp only [quotedBody?, Option.map_eq_some_iff] at found
      obtain ⟨⟨inner, after⟩, read, same⟩ := found
      cases same
      obtain ⟨units, made⟩ := ih read
      refine ⟨.plain c :: units, .plain quote ?_ made⟩
      rintro rfl
      cases rest with
      | nil => exact single rfl rfl
      | cons next rest => exact escape next rest rfl rfl

/-- Quoted text is what stands before the closing quote, made of units. -/
theorem quotedBody?_eq_some_iff {text body tail : List Char}
    : quotedBody? text = some (body, tail)
      ↔ (∃ units, UnitsOf body units) ∧ text = body ++ '"' :: tail := by
  constructor
  · exact fun found => ⟨exists_unitsOf found, eq_append_of_quotedBody? found⟩
  · rintro ⟨⟨units, made⟩, rfl⟩
    exact made.quotedBody?_eq tail

theorem exists_unitsOf_payload {line : String} {payload : Payload}
    (found : payload? line = some payload)
    : ∃ units, UnitsOf payload.escaped units := by
  obtain ⟨_, _, _, -, -, read, -⟩ := quoted_of_payload? found
  exact (quotedBody?_eq_some_iff.mp read).1

end Assembly

namespace Escape

open Assembly

-----------------------------------------------------------------------------------------
-- Tokens made of units
-----------------------------------------------------------------------------------------

/-- Reading takes the tokens off the text, from left to right, and comes to the rest. -/
inductive ComesTo : List Char → List Token → List Char → Prop
  | start {text} : ComesTo text [] text
  | token {c text token left ts rest} (read : readToken c text = .ok (token, left))
    (later : ComesTo left ts rest)
    : ComesTo (c :: text) (token :: ts) rest

/-- Reading comes to the rest behind the tokens into which a text splits. -/
theorem comesTo_iff_splits {text rest : List Char} {ts : List Token}
    : ComesTo text ts rest ↔ Splits text ts rest := by
  constructor
  · intro comes
    induction comes with
    | start => exact .nil
    | token read _ ih =>
        obtain ⟨formed, ends, whole⟩ := readToken_eq_ok_iff.mp read
        rw [whole]
        exact .cons formed ends ih
  · intro split
    induction split with
    | nil => exact .start
    | cons formed ends _ ih =>
        obtain ⟨c, tail, whole, read⟩ := readToken_of_formed formed ends
        rw [whole]
        exact .token read ih

/-- Digits are units by themselves, by induction on them. -/
theorem exists_units_behind_digits {digits text : List Char} {units : List QuotedUnit}
    (plain : '\\' ∉ digits) (made : UnitsOf (digits ++ text) units)
    : ∃ taken more, units = taken ++ more ∧ written taken = digits ∧ UnitsOf text more := by
  induction digits generalizing units with
  | nil => exact ⟨[], units, rfl, rfl, made⟩
  | cons digit rest ih =>
      rw [List.mem_cons, not_or] at plain
      rw [List.cons_append] at made
      generalize behind : rest ++ text = whole at made
      cases made with
      | plain _ _ later =>
          subst behind
          obtain ⟨taken, more, rfl, same, made⟩ := ih plain.2 later
          exact ⟨.plain digit :: taken, more, rfl, by rw [← same]; rfl, made⟩
      | pair _ _ => exact absurd rfl plain.1

theorem backslash_not_mem_octal {digits : List Char} (digital : ∀ c ∈ digits, c ∈ octalDigits)
    : '\\' ∉ digits :=
  fun member => absurd (digital _ member) (by decide)

theorem backslash_not_mem_hex {digits : List Char} (digital : ∀ c ∈ digits, c ∈ hexDigits)
    : '\\' ∉ digits :=
  fun member => absurd (digital _ member) (by decide)

/-- A token in front of a text is made of whole units, by cases on its form: the backslash of an
escape forms a pair with what comes first behind it, and its other digits stand by themselves.
-/
theorem exists_units_behind_token {token : Token} {text : List Char} {units : List QuotedUnit}
    (formed : token.Formed) (made : UnitsOf (token.spelling ++ text) units)
    : ∃ taken more,
        units = taken ++ more ∧ written taken = token.spelling ∧ UnitsOf text more := by
  cases formed with
  | char escape =>
      cases made with
      | plain _ _ later => exact ⟨[_], _, rfl, rfl, later⟩
      | pair _ _ => exact absurd rfl escape
  | simple _ =>
      cases made with
      | plain _ escape _ => exact absurd rfl escape
      | pair _ later => exact ⟨[_], _, rfl, rfl, later⟩
  | @octal digits some _ digital =>
      cases digits with
      | nil => exact absurd rfl some
      | cons digit digits =>
          cases made with
          | plain _ escape _ => exact absurd rfl escape
          | pair _ later =>
              have plain := backslash_not_mem_octal fun c member =>
                digital c (List.mem_cons_of_mem _ member)
              obtain ⟨taken, more, rfl, same, made⟩ := exists_units_behind_digits plain later
              exact ⟨.pair digit :: taken, more, rfl, by rw [Token.spelling, ← same]; rfl, made⟩
  | @hex mark digits _ _ digital =>
      cases made with
      | plain _ escape _ => exact absurd rfl escape
      | pair _ later =>
          obtain ⟨taken, more, rfl, same, made⟩ :=
            exists_units_behind_digits (backslash_not_mem_hex digital) later
          exact ⟨.pair mark :: taken, more, rfl, by rw [Token.spelling, ← same]; rfl, made⟩

/-- So are tokens in front of a rest, by induction on the split. -/
theorem Splits.exists_units {text rest : List Char} {ts : List Token} {units : List QuotedUnit}
    (split : Splits text ts rest) (made : UnitsOf text units)
    : ∃ taken more,
        units = taken ++ more ∧ written taken = spelled ts ∧ UnitsOf rest more := by
  induction split generalizing units with
  | nil => exact ⟨[], units, rfl, rfl, made⟩
  | @cons token _ tokens _ formed _ _ ih =>
      obtain ⟨first, others, rfl, head, made⟩ := exists_units_behind_token formed made
      obtain ⟨taken, more, rfl, tail, made⟩ := ih made
      refine ⟨first ++ taken, more, by rw [List.append_assoc], ?_, made⟩
      rw [written, List.flatMap_append, ← written, ← written, head, tail]
      rfl

/-- A backslash behind tokens starts a pair of the text, whose other character comes next. -/
theorem Splits.exists_pair {text behind : List Char} {ts : List Token} {units : List QuotedUnit}
    (split : Splits text ts ('\\' :: behind)) (made : UnitsOf text units)
    : ∃ taken c more,
        units = taken ++ .pair c :: more
        ∧ written taken = spelled ts
        ∧ behind = c :: written more := by
  obtain ⟨taken, more, rfl, same, made⟩ := split.exists_units made
  cases made with
  | plain _ escape _ => exact absurd rfl escape
  | pair _ later => exact ⟨taken, _, _, rfl, same, by rw [later.eq_written]⟩

-----------------------------------------------------------------------------------------
-- Quotes among the tokens
-----------------------------------------------------------------------------------------

/-- A quote that is written by a token of quoted text stands behind the backslash of the escape for
it, by cases on the token's form. By itself it would have closed the text.
-/
theorem eq_escape_of_quote {token : Token} {text : List Char} {units : List QuotedUnit}
    {index : Nat} (formed : token.Formed) (made : UnitsOf (token.spelling ++ text) units)
    (quote : token.spelling[index]? = some '"')
    : token = .simple '"' 0x22 ∧ index = 1 := by
  have member : '"' ∈ token.spelling := List.mem_of_getElem? quote
  cases formed with
  | char _ =>
      obtain rfl := List.mem_singleton.mp member
      cases made with
      | plain quote _ _ => exact absurd rfl quote
  | @simple letter byte known =>
      match index with
      | 0 => cases quote
      | 1 =>
          obtain rfl : letter = '"' := Option.some.inj quote
          have only : ∀ pair ∈ simpleEscapes, pair.1 = '"' → pair.2 = 0x22 := by decide
          obtain rfl : byte = 0x22 := only _ known rfl
          exact ⟨rfl, rfl⟩
      | _ + 2 => cases quote
  | octal _ _ digital =>
      rcases List.mem_cons.mp member with same | member
      · contradiction
      · exact absurd (digital _ member) (by decide)
  | hex marks _ digital =>
      rcases List.mem_cons.mp member with same | member
      · contradiction
      · rcases List.mem_cons.mp member with rfl | member
        · simp at marks
        · exact absurd (digital _ member) (by decide)

/-- Among tokens that are quoted text, every quote was read as an escape, by induction on the split.
-/
theorem Splits.exists_escape_of_quote {text : List Char} {ts : List Token}
    {units : List QuotedUnit} {index : Nat} (split : Splits text ts []) (made : UnitsOf text units)
    (quote : text[index]? = some '"')
    : ∃ before after,
        ts = before ++ .simple '"' 0x22 :: after ∧ index = (spelled before).length + 1 := by
  generalize none : ([] : List Char) = rest at split
  induction split generalizing units index with
  | nil =>
      subst none
      cases quote
  | @cons token text tokens _ formed _ _ ih =>
      rcases Nat.lt_or_ge index token.spelling.length with inside | behind
      · rw [List.getElem?_append_left inside] at quote
        obtain ⟨rfl, rfl⟩ := eq_escape_of_quote formed made quote
        exact ⟨[], tokens, rfl, rfl⟩
      · rw [List.getElem?_append_right behind] at quote
        obtain ⟨_, _, -, -, made⟩ := exists_units_behind_token formed made
        obtain ⟨before, after, rfl, place⟩ := ih made quote none
        refine ⟨token :: before, after, rfl, ?_⟩
        rw [spelled, List.flatMap_cons, List.length_append, ← spelled]
        omega

-----------------------------------------------------------------------------------------
-- What can be wrong with quoted text
-----------------------------------------------------------------------------------------

/-- Quoted text fails at a backslash with a bad escape behind it. -/
theorem badEscape_of_decode {payload : List Char} {units : List QuotedUnit} {error : Error}
    (made : UnitsOf payload units) (fails : decode payload = .error error)
    : ∃ before behind,
        payload = before ++ '\\' :: behind
        ∧ before.length = error.offset
        ∧ BadEscape behind error.fault := by
  obtain ⟨ts, behind, split, stop, place⟩ := decode_eq_error_iff.mp fails
  refine ⟨spelled ts, behind, split.eq_append, place, ?_⟩
  obtain ⟨_, c, more, -, -, rfl⟩ := split.exists_pair made
  rcases fault_cases stop with ⟨none, -⟩ | bad
  · cases none
  · exact bad

-----------------------------------------------------------------------------------------
-- The two readings
-----------------------------------------------------------------------------------------

/-- The escapes that are read from quoted text are pairs of its units. -/
structure EscapesArePairs (payload : List Char) : Prop where
  /-- The text is made of units in one way. -/
  units : ∃! units, UnitsOf payload units
  /-- A backslash that reading comes to starts a pair, so a character of the text follows it. -/
  starts
    : ∀ units ts behind,
        UnitsOf payload units
        → ComesTo payload ts ('\\' :: behind)
        → ∃ before c after,
            units = before ++ .pair c :: after
            ∧ written before = spelled ts
            ∧ behind = c :: written after
  notAtEnd : ∀ offset, decode payload ≠ .error { fault := .atEnd, offset }
  /-- Where reading succeeds, every quote was read as the escape for it. -/
  quotes
    : ∀ bytes,
        decode payload = .ok bytes
        → ∃ ts,
            tokens payload = .ok ts
            ∧ ∀ index,
                payload[index]? = some '"'
                → ∃ before after,
                    ts = before ++ .simple '"' 0x22 :: after
                    ∧ index = (spelled before).length + 1

theorem escapesArePairs {payload : List Char} {units : List QuotedUnit}
    (made : UnitsOf payload units)
    : EscapesArePairs payload where
  units := ⟨units, made, fun _ other => other.unique made⟩
  starts := fun _ _ _ own comes => (comesTo_iff_splits.mp comes).exists_pair own
  notAtEnd := by
    intro offset fails
    obtain ⟨_, _, -, -, bad⟩ := badEscape_of_decode made fails
    cases bad
  quotes := by
    intro bytes decodes
    obtain ⟨ts, split, -⟩ := decode_eq_ok_iff.mp decodes
    refine ⟨ts, tokensFrom_eq_ok_iff.mpr split, ?_⟩
    exact fun _ quote => split.exists_escape_of_quote made quote

/-- The fault in the payload of the line, which starts at the column, is a bad escape. -/
def StopsAtBadEscape (line : String) (column : Nat) (error : Error) : Prop :=
  ∃ payload before behind,
    payload? line = some payload
    ∧ column = payload.column
    ∧ payload.escaped = before ++ '\\' :: behind
    ∧ before.length = error.offset
    ∧ BadEscape behind error.fault

/-- What is read as an escape in the payload of a line was taken as one when its closing quote was
found, so a scan that fails with a payload fails with a bad escape.
-/
theorem payload_escapes_are_pairs (table : Rom.Table) (lines : List String)
    : (∀ line payload, payload? line = some payload → EscapesArePairs payload.escaped)
      ∧ ∀ number line column error,
          Scan.segments table lines = .error (.escape number line column error)
          → StopsAtBadEscape line column error := by
  constructor
  · intro line payload known
    obtain ⟨units, made⟩ := exists_unitsOf_payload known
    exact escapesArePairs made
  · intro number line column error failed
    obtain ⟨_, payload, -, -, -, known, place, fails⟩ := Scan.exists_firstUndecodable failed
    obtain ⟨units, made⟩ := exists_unitsOf_payload known
    obtain ⟨before, behind, whole, offset, bad⟩ := badEscape_of_decode made fails
    exact ⟨payload, before, behind, known, place, whole, offset, bad⟩

/-- Behind an escaped backslash, an escaped quote and an octal escape that is followed by a digit
stands a mark without digits, right before the closing quote.
-/
theorem payload_escapes_are_pairs_before_bad_mark
    : let table : Rom.Table := { base := 0, size := 0, chunks := [] }
      let line := "\t.ascii\t\"\\\\\\\"\\1012\\x\""
      let lines := ["\t.section\t.rodata", ".LC0:", line]
      let escaped := ['\\', '\\', '\\', '"', '\\', '1', '0', '1', '2', '\\', 'x']
      let error : Error := { fault := .noHexDigits 'x', offset := 9 }
      payload? line = some { directive := "ascii", escaped, column := 10 }
      ∧ EscapesArePairs escaped
      ∧ decode (escaped.take 9) = .ok [0x5C, 0x22, 0x41, 0x32]
      ∧ Scan.segments table lines = .error (.escape 3 line 10 error)
      ∧ StopsAtBadEscape line 10 error := by
  intro table line lines escaped error
  have known : payload? line = some { directive := "ascii", escaped, column := 10 } := by
    decide +kernel
  have fault : (Scan.history table lines).course.fault = some (.escape 3 line 10 error) := by
    decide +kernel
  have failed : Scan.segments table lines = .error (.escape 3 line 10 error) := by
    simp [Scan.segments, Scan.History.outcome, fault]
  obtain ⟨pairs, stops⟩ := payload_escapes_are_pairs table lines
  exact ⟨known, pairs line _ known, by decide +kernel, failed, stops 3 line 10 error failed⟩

end Escape

end RomStrings
