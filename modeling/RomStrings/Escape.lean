import RomStrings.Diagnostic
import RomStrings.Text.Latin1
import RomStrings.Text.Numeral

/-!
The quoted payload of a string directive, and the bytes that an assembler stores for it. A payload
is a sequence of tokens; each token has a spelling and bytes, and reading takes the longest escape.
-/

namespace RomStrings

open Text

namespace Escape

/-- One unit of a payload: a character that stands for itself, or an escape. -/
inductive Token where
  | char (c : Char)
  | simple (letter : Char) (byte : UInt8)
  | octal (digits : List Char)
  | hex (mark : Char) (digits : List Char)
  deriving DecidableEq, Repr

/-- The byte of an escape with a letter or mark of its own. -/
def simpleByte? : Char → Option UInt8
  | '"' => some 0x22
  | '\\' => some 0x5C
  | 'a' => some 0x07
  | 'b' => some 0x08
  | 'e' => some 0x1B
  | 'f' => some 0x0C
  | 'n' => some 0x0A
  | 'r' => some 0x0D
  | 't' => some 0x09
  | 'v' => some 0x0B
  | _ => none

/-- The bytes of a character that stands for itself: one byte for a Latin-1 character, the UTF-8
form of any other. A lone surrogate is no `Char`, so a text that holds one is outside this library;
no file reads as such a text.
-/
def charBytes (c : Char) : Bytes :=
  if c.toNat < 0x100 then [UInt8.ofNat c.toNat] else String.utf8EncodeChar c

/-- What a token is written as. -/
def Token.spelling : Token → List Char
  | .char c => [c]
  | .simple letter _ => ['\\', letter]
  | .octal digits => '\\' :: digits
  | .hex mark digits => '\\' :: mark :: digits

/-- What a token stands for. A numeric escape keeps the low eight bits of its value. -/
def Token.bytes : Token → Bytes
  | .char c => charBytes c
  | .simple _ byte => [byte]
  | .octal digits => [UInt8.ofNat (numeralValue 8 digits)]
  | .hex _ digits => [UInt8.ofNat (numeralValue 16 digits)]

/-- What can be wrong behind a backslash. -/
inductive Fault where
  | atEnd
  | noHexDigits (mark : Char)
  | unknown (letter : Char)
  deriving DecidableEq, Repr

def Fault.message : Fault → String
  | .atEnd => "backslash at end of string"
  | .noHexDigits mark => "expected hexadecimal digits after \\" ++ mark.toString
  | .unknown letter => "unknown escape sequence '\\" ++ letter.toString ++ "'"

/-- What is wrong in a payload, and where the backslash of it stands. -/
structure Error where
  fault : Fault
  offset : Nat
  deriving DecidableEq, Repr

/-- The octal digits that an escape takes: as many as there are, up to three. -/
def octalRun (text : List Char) : List Char :=
  (text.take 3).takeWhile (isDigit 8)

/-- The escape behind a backslash, and what is left. -/
def readEscape : List Char → Except Fault (Token × List Char)
  | [] => .error .atEnd
  | c :: rest =>
      match simpleByte? c with
      | some byte => .ok (.simple c byte, rest)
      | none =>
          if isDigit 8 c then
            let digits := octalRun (c :: rest)
            .ok (.octal digits, (c :: rest).drop digits.length)
          else if c = 'x' ∨ c = 'X' then
            match rest.takeWhile (isDigit 16) with
            | [] => .error (.noHexDigits c)
            | digit :: digits => .ok (.hex c (digit :: digits), rest.dropWhile (isDigit 16))
          else
            .error (.unknown c)

/-- The first token of a payload that is not empty, and what is left. -/
def readToken (c : Char) (rest : List Char) : Except Fault (Token × List Char) :=
  if c = '\\' then readEscape rest else .ok (.char c, rest)

/-- Reading an escape takes at least one character, in each of its four forms. -/
theorem length_lt_of_readEscape {text rest : List Char} {token : Token}
    (h : readEscape text = .ok (token, rest))
    : rest.length < text.length := by
  cases text with
  | nil => simp [readEscape] at h
  | cons c tail =>
      simp only [readEscape] at h
      split at h
      · cases h
        simp
      · split at h
        next hd =>
          cases h
          have taken : 0 < (octalRun (c :: tail)).length := by simp [octalRun, hd]
          rw [List.length_drop, List.length_cons]
          omega
        · split at h
          · split at h
            · cases h
            · cases h
              exact Nat.lt_succ_of_le (List.dropWhile_suffix (isDigit 16)).length_le
          · cases h

/-- A token takes at least one character. -/
theorem length_le_of_readToken {c : Char} {text rest : List Char} {token : Token}
    (h : readToken c text = .ok (token, rest))
    : rest.length ≤ text.length := by
  simp only [readToken] at h
  split at h
  · exact Nat.le_of_lt (length_lt_of_readEscape h)
  · cases h
    exact Nat.le_refl _

/-- The tokens of a payload that starts the given number of characters in. -/
def tokensFrom (offset : Nat) (text : List Char) : Except Error (List Token) :=
  match text with
  | [] => .ok []
  | c :: rest =>
      match _h : readToken c rest with
      | .error fault => .error { fault, offset }
      | .ok (token, left) =>
          (tokensFrom (offset + token.spelling.length) left).map (token :: ·)
termination_by text.length
decreasing_by
  have := length_le_of_readToken _h
  simp
  omega

def tokens (payload : List Char) : Except Error (List Token) :=
  tokensFrom 0 payload

def decode (payload : List Char) : Except Error Bytes :=
  (tokens payload).map fun ts => ts.flatMap Token.bytes

/-- What messages suggest about escapes. -/
def hint : String :=
  "valid escapes are \\\" \\\\ \\a \\b \\e \\f \\n \\r \\t \\v, octal, \\x and \\X"

/-- The report of a fault in a payload that starts at the given place. A known column moves on to
the backslash.
-/
def Error.diagnostic (e : Error) (place : Option Location) (line : Option String)
    : Diagnostic :=
  { message := e.fault.message
    location := place.map fun p =>
      if p.column > 0 then p.atColumn (p.column + e.offset) else p
    hint := some hint
    sourceLine := line }

end Escape

end RomStrings
