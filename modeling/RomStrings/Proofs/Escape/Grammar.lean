import Mathlib.Data.List.Basic
import RomStrings.Escape
import RomStrings.Proofs.Text.Digits
import RomStrings.Proofs.Text.Latin1

/-!
The grammar of payloads. A payload has a meaning exactly if it splits into tokens that are each as
long as they can be, and it splits in one way only. Reading finds that split, or the backslash at
which no token starts.
-/

namespace RomStrings

open Text

namespace Escape

-----------------------------------------------------------------------------------------
-- Tokens
-----------------------------------------------------------------------------------------

/-- The escapes of one character, with the byte that each stands for. -/
def simpleEscapes : List (Char × UInt8) :=
  [('"', 0x22), ('\\', 0x5C), ('a', 0x07), ('b', 0x08), ('e', 0x1B), ('f', 0x0C), ('n', 0x0A),
    ('r', 0x0D), ('t', 0x09), ('v', 0x0B)]

/-- The token has one of the four forms of the grammar. -/
inductive Token.Formed : Token → Prop
  | char {c} (plain : c ≠ '\\') : Formed (.char c)
  | simple {letter byte} (known : (letter, byte) ∈ simpleEscapes) : Formed (.simple letter byte)
  | octal {digits} (some : digits ≠ []) (few : digits.length ≤ 3)
    (digital : ∀ c ∈ digits, c ∈ octalDigits)
    : Formed (.octal digits)
  | hex {mark digits} (marks : mark = 'x' ∨ mark = 'X') (some : digits ≠ [])
    (digital : ∀ c ∈ digits, c ∈ hexDigits)
    : Formed (.hex mark digits)

/-- The token would go on with the character if that came next. -/
def Token.takes : Token → Char → Bool
  | .octal digits, c => digits.length < 3 && c ∈ octalDigits
  | .hex _ _, c => c ∈ hexDigits
  | .char _, _ | .simple _ _, _ => false

/-- The token ends where the text begins. -/
def Token.EndsBefore (token : Token) (text : List Char) : Prop :=
  ∀ c ∈ text.head?, token.takes c = false

/-- The byte of a token in Latin-1 text. -/
def Token.byte : Token → UInt8
  | .char c => UInt8.ofNat c.toNat
  | .simple _ byte => byte
  | .octal digits => UInt8.ofNat (runValue 8 digits)
  | .hex _ digits => UInt8.ofNat (runValue 16 digits)

/-- The text is the tokens, each as long as it can be, and the rest behind them. -/
inductive Splits : List Char → List Token → List Char → Prop
  | nil {rest} : Splits rest [] rest
  | cons {token text tokens rest} (formed : token.Formed) (ends : token.EndsBefore text)
    (later : Splits text tokens rest)
    : Splits (token.spelling ++ text) (token :: tokens) rest

/-- What the tokens are written as. -/
def spelled (tokens : List Token) : List Char :=
  tokens.flatMap Token.spelling

-----------------------------------------------------------------------------------------
-- Reading one token
-----------------------------------------------------------------------------------------

theorem Token.takes_octal (digits : List Char) (c : Char)
    : (Token.octal digits).takes c = (decide (digits.length < 3) && isDigit 8 c) := by
  rw [Token.takes, Bool.eq_iff_iff]
  simp [isDigit_octal_iff]

theorem Token.takes_hex (mark : Char) (digits : List Char) (c : Char)
    : (Token.hex mark digits).takes c = isDigit 16 c := by
  rw [Token.takes, Bool.eq_iff_iff]
  simp [isDigit_hex_iff]

theorem simpleByte?_eq_some_iff {letter : Char} {byte : UInt8}
    : simpleByte? letter = some byte ↔ (letter, byte) ∈ simpleEscapes := by
  simp only [simpleByte?]
  split <;> simp_all [simpleEscapes, eq_comm]

/-- An octal digit is no escape by itself, by comparing it with all of these. -/
theorem simpleByte?_of_octal {c : Char} (octal : isDigit 8 c = true) : simpleByte? c = none := by
  cases found : simpleByte? c with
  | none => rfl
  | some byte =>
      have apart : ∀ pair ∈ simpleEscapes, isDigit 8 pair.1 = false := by decide +kernel
      have plain := apart _ (simpleByte?_eq_some_iff.mp found)
      rw [octal] at plain
      contradiction

theorem not_octal_of_mark {mark : Char} (marks : mark = 'x' ∨ mark = 'X')
    : simpleByte? mark = none ∧ isDigit 8 mark = false := by
  rcases marks with rfl | rfl <;> decide

/-- Behind a run of bounded length that did not reach its bound stands a character of another kind,
by induction on the text.
-/
theorem head_behind_run {p : Char → Bool} {bound : Nat} {text : List Char}
    (short : ((text.take bound).takeWhile p).length < bound)
    : ∀ c ∈ (text.drop ((text.take bound).takeWhile p).length).head?, p c = false := by
  induction text generalizing bound with
  | nil => simp
  | cons first rest ih =>
      cases bound with
      | zero => exact absurd short (Nat.not_lt_zero _)
      | succ bound =>
          cases known : p first with
          | false => simp [known]
          | true =>
              simp only [List.take_succ_cons, List.takeWhile_cons, known, if_true,
                List.length_cons, List.drop_succ_cons] at short ⊢
              exact ih (Nat.lt_of_succ_lt_succ short)

theorem octalRun_append (text : List Char)
    : octalRun text ++ text.drop (octalRun text).length = text :=
  List.prefix_iff_eq_append.mp ((List.takeWhile_prefix _).trans (List.take_prefix 3 text))

/-- The digits of an octal escape are the run that is read, wherever the escape ends. -/
theorem octalRun_eq {digits text : List Char} (few : digits.length ≤ 3)
    (digital : ∀ c ∈ digits, c ∈ octalDigits) (ends : (Token.octal digits).EndsBefore text)
    : octalRun (digits ++ text) = digits := by
  have done : (text.take (3 - digits.length)).takeWhile (isDigit 8) = [] := by
    cases text with
    | nil => simp
    | cons c rest =>
        rcases Nat.lt_or_ge digits.length 3 with short | full
        · have stops : isDigit 8 c = false := by
            simpa [Token.takes_octal, short] using ends c rfl
          have some : 3 - digits.length = (2 - digits.length) + 1 := by omega
          rw [some, List.take_succ_cons, List.takeWhile_cons, stops]
          rfl
        · have none : 3 - digits.length = 0 := by omega
          rw [none]
          rfl
  rw [octalRun, List.take_append, List.take_of_length_le few,
    List.takeWhile_append_of_pos fun c member => isDigit_octal_iff.mpr (digital c member), done,
    List.append_nil]

/-- The escape that is read stands behind the backslash and ends where the rest begins. -/
theorem formed_of_readEscape {text rest : List Char} {token : Token}
    (read : readEscape text = .ok (token, rest))
    : token.Formed ∧ token.EndsBefore rest ∧ '\\' :: text = token.spelling ++ rest := by
  cases text with
  | nil => simp [readEscape] at read
  | cons c tail =>
      simp only [readEscape] at read
      split at read
      next byte known =>
        cases read
        exact ⟨.simple (simpleByte?_eq_some_iff.mp known), fun _ _ => rfl, rfl⟩
      next =>
        split at read
        next octal =>
          cases read
          have few : (octalRun (c :: tail)).length ≤ 3 :=
            (List.takeWhile_prefix _).length_le.trans (List.length_take_le 3 _)
          have some : octalRun (c :: tail) ≠ [] := by simp [octalRun, octal]
          have digital : ∀ digit ∈ octalRun (c :: tail), digit ∈ octalDigits := fun _ member =>
            isDigit_octal_iff.mp (List.all_eq_true.mp List.all_takeWhile _ member)
          refine ⟨.octal some few digital, ?_, ?_⟩
          · intro next follows
            rw [Token.takes_octal]
            rcases Nat.lt_or_ge (octalRun (c :: tail)).length 3 with short | full
            · simp [head_behind_run short next follows]
            · simp [Nat.not_lt.mpr full]
          · rw [Token.spelling, List.cons_append, octalRun_append]
        next =>
          split at read
          next marks =>
            split at read
            next => cases read
            next digit digits run =>
              cases read
              refine ⟨.hex marks (List.cons_ne_nil _ _) ?_, ?_, ?_⟩
              · rw [← run]
                exact fun _ member =>
                  isDigit_hex_iff.mp (List.all_eq_true.mp List.all_takeWhile _ member)
              · intro next follows
                have stops := List.head?_dropWhile_not (isDigit 16) tail
                rw [Option.mem_def.mp follows] at stops
                simpa [Token.takes_hex] using stops
              · rw [Token.spelling, ← run]
                simp
          next => cases read

/-- A token that ends where the rest begins is the one that is read, by cases on its form. -/
theorem readToken_of_formed {token : Token} {rest : List Char} (formed : token.Formed)
    (ends : token.EndsBefore rest)
    : ∃ c tail, token.spelling ++ rest = c :: tail ∧ readToken c tail = .ok (token, rest) := by
  cases formed with
  | char plain => exact ⟨_, _, rfl, by simp [readToken, plain]⟩
  | simple known =>
      refine ⟨_, _, rfl, ?_⟩
      simp [readToken, readEscape, simpleByte?_eq_some_iff.mpr known]
  | @octal digits some few digital =>
      refine ⟨_, _, rfl, ?_⟩
      have run := octalRun_eq few digital ends
      cases digits with
      | nil => contradiction
      | cons digit others =>
          have first : isDigit 8 digit = true :=
            isDigit_octal_iff.mpr (digital digit List.mem_cons_self)
          have left : (digit :: (others ++ rest)).drop (digit :: others).length = rest := by
            rw [← List.cons_append, List.drop_left]
          rw [List.cons_append] at run
          simp only [List.append_eq, List.cons_append, readToken, if_true, readEscape,
            simpleByte?_of_octal first, first, run, left]
  | @hex mark digits marks some digital =>
      refine ⟨_, _, rfl, ?_⟩
      obtain ⟨unknown, notOctal⟩ := not_octal_of_mark marks
      have hex : ∀ c ∈ digits, isDigit 16 c = true := fun c member =>
        isDigit_hex_iff.mpr (digital c member)
      have done : rest.takeWhile (isDigit 16) = [] ∧ rest.dropWhile (isDigit 16) = rest := by
        cases rest with
        | nil => exact ⟨rfl, rfl⟩
        | cons c tail =>
            have stops : isDigit 16 c = false := by simpa [Token.takes_hex] using ends c rfl
            simp [stops]
      have run : (digits ++ rest).takeWhile (isDigit 16) = digits := by
        rw [List.takeWhile_append_of_pos hex, done.1, List.append_nil]
      have left : (digits ++ rest).dropWhile (isDigit 16) = rest := by
        rw [List.dropWhile_append_of_pos hex, done.2]
      cases digits with
      | nil => contradiction
      | cons digit others =>
          rw [List.cons_append] at run left
          simp [readToken, readEscape, unknown, notOctal, marks, run, left]

/-- The token that is read is the one that the text starts with, and that ends where the rest
begins.
-/
theorem readToken_eq_ok_iff {c : Char} {text rest : List Char} {token : Token}
    : readToken c text = .ok (token, rest)
      ↔ token.Formed ∧ token.EndsBefore rest ∧ c :: text = token.spelling ++ rest := by
  constructor
  · intro read
    simp only [readToken] at read
    split at read
    next backslash =>
      subst backslash
      exact formed_of_readEscape read
    next plain =>
      cases read
      exact ⟨.char plain, fun _ _ => rfl, rfl⟩
  · rintro ⟨formed, ends, same⟩
    obtain ⟨own, tail, spelling, read⟩ := readToken_of_formed formed ends
    rw [← same] at spelling
    cases spelling
    exact read

-----------------------------------------------------------------------------------------
-- Splitting a payload
-----------------------------------------------------------------------------------------

theorem Token.Formed.spelling_ne_nil {token : Token} (formed : token.Formed)
    : token.spelling ≠ [] := by
  cases formed <;> simp [Token.spelling]

theorem Token.EndsBefore.of_append {token : Token} {text more : List Char}
    (ends : token.EndsBefore (text ++ more))
    : token.EndsBefore text := by
  intro c follows
  apply ends c
  rw [List.head?_append, Option.mem_def.mp follows]
  rfl

/-- No escape goes on with a backslash, since that is no digit. -/
theorem Token.endsBefore_backslash (token : Token) (text : List Char)
    : token.EndsBefore ('\\' :: text) := by
  intro c follows
  obtain rfl : '\\' = c := by simpa using follows
  cases token with
  | char | simple => rfl
  | octal digits =>
      have plain : isDigit 8 '\\' = false := by decide
      simp [Token.takes_octal, plain]
  | hex mark digits =>
      have plain : isDigit 16 '\\' = false := by decide
      simp [Token.takes_hex, plain]

namespace Splits

variable {text rest : List Char} {ts : List Token}

/-- The text that is split is what the tokens are written as, and the rest. -/
theorem eq_append (split : Splits text ts rest) : text = spelled ts ++ rest := by
  induction split with
  | nil => rfl
  | cons _ _ _ ih => rw [ih, spelled, spelled, List.flatMap_cons, List.append_assoc]

theorem formed (split : Splits text ts rest) : ∀ token ∈ ts, token.Formed := by
  induction split with
  | nil => simp
  | cons formed _ _ ih => exact List.forall_mem_cons.mpr ⟨formed, ih⟩

/-- The tokens split their own spelling, by induction on the split. A token that ends before more
text ends before less.
-/
theorem cut (split : Splits text ts rest) : Splits (spelled ts) ts [] := by
  induction split with
  | nil => exact .nil
  | @cons token text tokens rest formed ends later ih =>
      rw [later.eq_append] at ends
      exact .cons formed ends.of_append ih

theorem append {more : List Token} {last : List Char} (first : Splits text ts rest)
    (second : Splits rest more last)
    : Splits text (ts ++ more) last := by
  induction first with
  | nil => exact second
  | cons formed ends _ ih => exact .cons formed ends (ih second)

/-- A text that is split behind tokens is read token by token, by induction on the split. -/
theorem tokensFrom_eq (split : Splits text ts rest) (offset : Nat)
    : tokensFrom offset text
      = (tokensFrom (offset + (spelled ts).length) rest).map (ts ++ ·) := by
  induction split generalizing offset with
  | @nil rest =>
      rw [spelled, List.flatMap_nil, List.length_nil, Nat.add_zero]
      cases tokensFrom offset rest <;> rfl
  | @cons token text tokens rest formed ends later ih =>
      obtain ⟨c, tail, spelling, read⟩ := readToken_of_formed formed ends
      have whole : (spelled (token :: tokens)).length
          = token.spelling.length + (spelled tokens).length := by
        rw [spelled, List.flatMap_cons, List.length_append, spelled]
      rw [spelling, tokensFrom]
      split
      next fault fails =>
        rw [read] at fails
        cases fails
      next own left again =>
        rw [read] at again
        cases again
        rw [ih, whole, Nat.add_assoc]
        cases tokensFrom (offset + (token.spelling.length + (spelled tokens).length)) rest <;> rfl

end Splits

/-- Every text splits into tokens up to its end or to a character at which none can be read, by
induction as it is read.
-/
theorem exists_splits (text : List Char)
    : ∃ ts rest,
        Splits text ts rest
        ∧ ∀ c behind, rest = c :: behind → ∃ fault, readToken c behind = .error fault := by
  induction length : text.length using Nat.strongRecOn generalizing text with
  | ind size ih =>
      cases text with
      | nil => exact ⟨[], [], .nil, nofun⟩
      | cons c tail =>
          cases read : readToken c tail with
          | error fault =>
              refine ⟨[], c :: tail, .nil, ?_⟩
              intro own behind same
              cases same
              exact ⟨fault, read⟩
          | ok pair =>
              obtain ⟨token, left⟩ := pair
              have shorter : left.length < size := by
                have bound := length_le_of_readToken read
                rw [List.length_cons] at length
                omega
              obtain ⟨formed, ends, same⟩ := readToken_eq_ok_iff.mp read
              obtain ⟨ts, rest, split, stops⟩ := ih left.length shorter left rfl
              rw [same]
              exact ⟨token :: ts, rest, .cons formed ends split, stops⟩

theorem tokensFrom_of_fault {offset : Nat} {c : Char} {text : List Char} {fault : Fault}
    (fails : readToken c text = .error fault)
    : tokensFrom offset (c :: text) = .error { fault, offset } := by
  rw [tokensFrom]
  split
  next own again =>
    rw [fails] at again
    cases again
    rfl
  next token left read =>
    rw [fails] at read
    cases read

/-- The tokens of a payload are those into which it splits. -/
theorem tokensFrom_eq_ok_iff {offset : Nat} {text : List Char} {ts : List Token}
    : tokensFrom offset text = .ok ts ↔ Splits text ts [] := by
  have done (offset : Nat) : tokensFrom offset [] = .ok [] := by rw [tokensFrom]
  constructor
  · intro read
    obtain ⟨own, rest, split, stops⟩ := exists_splits text
    rw [split.tokensFrom_eq] at read
    cases rest with
    | nil =>
        rw [done] at read
        cases read
        simpa using split
    | cons c behind =>
        obtain ⟨fault, fails⟩ := stops c behind rfl
        rw [tokensFrom_of_fault fails] at read
        cases read
  · intro split
    rw [split.tokensFrom_eq, done, Except.map, List.append_nil]

/-- A payload splits in one way only, since it is read in one way. -/
theorem Splits.unique {text : List Char} {ts us : List Token} (first : Splits text ts [])
    (second : Splits text us [])
    : ts = us := by
  have read : tokensFrom 0 text = .ok ts := tokensFrom_eq_ok_iff.mpr first
  rw [tokensFrom_eq_ok_iff.mpr second] at read
  exact (Except.ok.inj read).symm

theorem decode_eq_ok_iff {payload : List Char} {bytes : Bytes}
    : decode payload = .ok bytes ↔ ∃ ts, Splits payload ts [] ∧ ts.flatMap Token.bytes = bytes := by
  rw [decode, tokens]
  cases read : tokensFrom 0 payload with
  | ok ts =>
      have split := tokensFrom_eq_ok_iff.mp read
      constructor
      · intro same
        exact ⟨ts, split, Except.ok.inj same⟩
      · rintro ⟨own, again, rfl⟩
        rw [again.unique split]
        rfl
  | error error =>
      constructor
      · intro same
        cases same
      · rintro ⟨ts, split, -⟩
        rw [tokensFrom_eq_ok_iff.mpr split] at read
        cases read

-----------------------------------------------------------------------------------------
-- Where reading stops
-----------------------------------------------------------------------------------------

/-- The text starts with a token of the grammar. -/
def StartsToken (text : List Char) : Prop :=
  ∃ token rest, Splits text [token] rest

/-- At the offset of the payload stands a backslash at which no token starts, and all that stands
before it decodes.
-/
def StopsAt (payload : List Char) (offset : Nat) : Prop :=
  ∃ before behind,
    payload = before ++ '\\' :: behind
    ∧ before.length = offset
    ∧ (∃ bytes, decode before = .ok bytes)
    ∧ ¬StartsToken ('\\' :: behind)

theorem startsToken_iff {c : Char} {text : List Char}
    : StartsToken (c :: text) ↔ ∃ token rest, readToken c text = .ok (token, rest) := by
  constructor
  · rintro ⟨token, rest, split⟩
    generalize whole : c :: text = own at split
    cases split with
    | cons formed ends later =>
        cases later with
        | nil => exact ⟨token, _, readToken_eq_ok_iff.mpr ⟨formed, ends, whole⟩⟩
  · rintro ⟨token, rest, read⟩
    obtain ⟨formed, ends, same⟩ := readToken_eq_ok_iff.mp read
    rw [same]
    exact ⟨token, rest, .cons formed ends .nil⟩

/-- Only a backslash can fail to start a token. -/
theorem eq_backslash_of_fault {c : Char} {text : List Char} {fault : Fault}
    (fails : readToken c text = .error fault)
    : c = '\\' := by
  by_contra plain
  simp [readToken, plain] at fails

/-- What is wrong behind a backslash, where some character follows it: no escape starts with that
character, or it is the mark of hexadecimal digits and none follows.
-/
inductive BadEscape : List Char → Fault → Prop
  | unknown {c rest} (simple : ∀ byte, (c, byte) ∉ simpleEscapes) (octal : c ∉ octalDigits)
    (mark : c ≠ 'x' ∧ c ≠ 'X')
    : BadEscape (c :: rest) (.unknown c)
  | noHexDigits {mark rest} (marks : mark = 'x' ∨ mark = 'X')
    (none : ∀ c ∈ rest.head?, c ∉ hexDigits)
    : BadEscape (mark :: rest) (.noHexDigits mark)

/-- Nothing is behind the backslash or a bad escape is, by cases in the order in which the forms of
escapes are tried.
-/
theorem fault_cases {behind : List Char} {fault : Fault}
    (fails : readToken '\\' behind = .error fault)
    : behind = [] ∧ fault = .atEnd ∨ BadEscape behind fault := by
  simp only [readToken, if_true] at fails
  cases behind with
  | nil => exact .inl ⟨rfl, (Except.error.inj fails).symm⟩
  | cons c rest =>
      right
      simp only [readEscape] at fails
      split at fails
      next => cases fails
      next unknown =>
        split at fails
        next => cases fails
        next notOctal =>
          split at fails
          next marks =>
            split at fails
            next run =>
              cases fails
              refine .noHexDigits marks fun digit first => ?_
              rw [← isDigit_hex_iff]
              intro digital
              cases rest with
              | nil => cases first
              | cons next rest =>
                  cases first
                  simp [digital] at run
            next => cases fails
          next unmarked =>
            cases fails
            refine .unknown (fun byte known => ?_) ?_ (not_or.mp unmarked)
            · rw [simpleByte?_eq_some_iff.mpr known] at unknown
              cases unknown
            · exact fun member => notOctal (isDigit_octal_iff.mpr member)

/-- Behind tokens, reading fails at the backslash that starts none. -/
theorem tokensFrom_of_stop {offset : Nat} {text behind : List Char} {ts : List Token}
    {fault : Fault} (split : Splits text ts ('\\' :: behind))
    (fails : readToken '\\' behind = .error fault)
    : tokensFrom offset text = .error { fault, offset := offset + (spelled ts).length } := by
  rw [split.tokensFrom_eq, tokensFrom_of_fault fails]
  rfl

/-- A text is parted behind its tokens: they are read whatever is behind them, if the last one ends
there. By induction on the split, where only the last token is not followed by another one.
-/
theorem Splits.join {first second : List Char} {ts : List Token} (split : Splits first ts [])
    (parted : ∀ token ∈ ts.getLast?, token.EndsBefore second)
    : Splits (first ++ second) ts second := by
  generalize none : ([] : List Char) = rest at split
  induction split with
  | nil =>
      subst none
      exact .nil
  | @cons token text tokens rest formed ends later ih =>
      subst none
      rw [List.append_assoc]
      cases later with
      | nil => exact .cons formed (parted token rfl) .nil
      | @cons next text others _ nextFormed nextEnds rest =>
          refine .cons formed ?_ (ih (fun own last => parted own (by simpa using last)) rfl)
          intro c follows
          apply ends c
          cases spelling : next.spelling with
          | nil => exact absurd spelling nextFormed.spelling_ne_nil
          | cons head tail => simpa [spelling] using follows

/-- A payload is at fault exactly if its tokens end at a backslash that starts none. -/
theorem decode_eq_error_iff {payload : List Char} {error : Error}
    : decode payload = .error error
      ↔ ∃ ts behind,
          Splits payload ts ('\\' :: behind)
          ∧ readToken '\\' behind = .error error.fault
          ∧ (spelled ts).length = error.offset := by
  constructor
  · intro fails
    obtain ⟨ts, rest, split, stops⟩ := exists_splits payload
    cases rest with
    | nil =>
        rw [decode_eq_ok_iff.mpr ⟨ts, split, rfl⟩] at fails
        cases fails
    | cons c behind =>
        obtain ⟨fault, stop⟩ := stops c behind rfl
        obtain rfl := eq_backslash_of_fault stop
        rw [decode, tokens, tokensFrom_of_stop split stop] at fails
        cases fails
        exact ⟨ts, behind, split, stop, (Nat.zero_add _).symm⟩
  · rintro ⟨ts, behind, split, stop, same⟩
    rw [decode, tokens, tokensFrom_of_stop split stop, Nat.zero_add, same]
    rfl

/-- Reading fails at an offset exactly if it stops there: all before it splits into tokens, which
are the same before a backslash as at the end of a text.
-/
theorem exists_fault_iff_stopsAt {payload : List Char} {offset : Nat}
    : (∃ fault, decode payload = .error { fault, offset }) ↔ StopsAt payload offset := by
  constructor
  · rintro ⟨fault, fails⟩
    obtain ⟨ts, behind, split, stop, rfl⟩ := decode_eq_error_iff.mp fails
    have decodes := decode_eq_ok_iff.mpr ⟨ts, split.cut, rfl⟩
    refine ⟨spelled ts, behind, split.eq_append, rfl, ⟨_, decodes⟩, ?_⟩
    rw [startsToken_iff]
    rintro ⟨token, rest, read⟩
    rw [stop] at read
    cases read
  · rintro ⟨before, behind, rfl, rfl, ⟨bytes, decodes⟩, none⟩
    obtain ⟨ts, split, -⟩ := decode_eq_ok_iff.mp decodes
    have whole := split.join fun token _ => token.endsBefore_backslash behind
    cases read : readToken '\\' behind with
    | ok pair => exact absurd (startsToken_iff.mpr ⟨pair.1, pair.2, read⟩) none
    | error fault =>
        have same : spelled ts = before := by simpa using split.eq_append.symm
        exact ⟨fault, decode_eq_error_iff.mpr ⟨ts, behind, whole, read, by rw [same]⟩⟩

-----------------------------------------------------------------------------------------
-- The meaning of a payload
-----------------------------------------------------------------------------------------

/-- In Latin-1 text every token stands for one byte. -/
theorem bytes_eq_of_narrow {text : List Char} (narrow : Narrow text) {ts : List Token}
    (split : Splits text ts [])
    : ts.flatMap Token.bytes = ts.map Token.byte := by
  rw [split.eq_append, List.append_nil] at narrow
  rw [List.map_eq_flatMap]
  apply List.flatMap_congr
  intro token member
  cases split.formed token member with
  | @char c _ =>
      have written : c ∈ spelled ts := List.mem_flatMap.mpr ⟨_, member, List.mem_singleton_self c⟩
      have bound : c.toNat < 0x100 := by simpa [isLatin1] using narrow c written
      simp [Token.bytes, charBytes, Token.byte, bound]
  | simple _ => rfl
  | octal _ _ digital =>
      have value := numeralValue_eq fun c member => isDigit_octal_iff.mpr (digital c member)
      rw [Token.bytes, Token.byte, value]
  | hex _ _ digital =>
      have value := numeralValue_eq fun c member => isDigit_hex_iff.mpr (digital c member)
      rw [Token.bytes, Token.byte, value]

/-- A payload is read by the grammar. -/
structure ReadByGrammar (payload : List Char) : Prop where
  accepts
    : ∀ bytes,
        decode payload = .ok bytes ↔ ∃ ts, Splits payload ts [] ∧ ts.map Token.byte = bytes
  unique : ∀ ts us, Splits payload ts [] → Splits payload us [] → ts = us
  refuses : (∃ error, decode payload = .error error) ↔ ¬∃ ts, Splits payload ts []
  /-- A payload that is refused is read up to the backslash of its first fault. -/
  stops : ∀ offset, (∃ fault, decode payload = .error { fault, offset }) ↔ StopsAt payload offset

/-- Decoding accepts exactly the payloads of the grammar, and stops at the first backslash at which
no token starts.
-/
theorem decode_by_grammar {payload : List Char} (narrow : ∀ c ∈ payload, c.toNat < 0x100)
    : ReadByGrammar payload := by
  have latin : Narrow payload := fun c member => by simpa [isLatin1] using narrow c member
  refine { accepts := ?_, unique := ?_, refuses := ?_, stops := fun _ => exists_fault_iff_stopsAt }
  · intro bytes
    rw [decode_eq_ok_iff]
    refine exists_congr fun ts => and_congr_right fun split => ?_
    rw [bytes_eq_of_narrow latin split]
  · exact fun _ _ => Splits.unique
  · constructor
    · rintro ⟨error, fails⟩ ⟨ts, split⟩
      rw [decode_eq_ok_iff.mpr ⟨ts, split, rfl⟩] at fails
      cases fails
    · intro none
      cases read : decode payload with
      | error error => exact ⟨error, rfl⟩
      | ok bytes =>
          obtain ⟨ts, split, -⟩ := decode_eq_ok_iff.mp read
          exact absurd ⟨ts, split⟩ none

/-- An octal escape ends behind its third digit, a hexadecimal one behind its last, and what comes
behind both of them is no escape.
-/
theorem decode_by_grammar_up_to_unknown_escape
    : let payload := ['\\', '1', '0', '1', '8', '\\', 'x', '4', '1', '4', '2', '\\', 'q']
      (∀ c ∈ payload, c.toNat < 0x100)
      ∧ decode (payload.take 11) = .ok [0x41, 0x38, 0x42]
      ∧ decode payload = .error { fault := .unknown 'q', offset := 11 }
      ∧ StopsAt payload 11
      ∧ ReadByGrammar payload := by
  intro payload
  have narrow : ∀ c ∈ payload, c.toNat < 0x100 := by simp [payload]
  have fails : decode payload = .error { fault := .unknown 'q', offset := 11 } := by decide +kernel
  have reads := decode_by_grammar narrow
  exact ⟨narrow, by decide +kernel, fails, (reads.stops 11).mp ⟨_, fails⟩, reads⟩

end Escape

end RomStrings
