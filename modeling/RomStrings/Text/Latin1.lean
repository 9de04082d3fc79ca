import RomStrings.Text.Quoted

/-!
Byte strings, as files, ROM images and string storage hold them, and Latin-1 text: byte `n` is the
character with code point `n`. Every byte string is the form of one text, and exactly the texts
below U+0100 have a form.
-/

namespace RomStrings

/-- A run of bytes. -/
abbrev Bytes := List UInt8

namespace Text

def latin1Char (b : UInt8) : Char :=
  Char.ofNat b.toNat

/-- The text that the bytes hold. -/
def latin1Text (data : Bytes) : List Char :=
  data.map latin1Char

def isLatin1 (c : Char) : Bool :=
  c.toNat < 0x100

/-- The first run of characters that have no byte: where it starts, and its characters. -/
structure WideRun where
  start : Nat
  chars : List Char
  deriving DecidableEq, Repr

/-- The first wide run of a text, if any. -/
def wideRun? (text : List Char) : Option WideRun :=
  let narrow := text.takeWhile isLatin1
  match (text.dropWhile isLatin1).takeWhile (!isLatin1 ·) with
  | [] => none
  | chars => some { start := narrow.length, chars }

/-- The bytes of a text, or the run that has none. -/
def latin1Bytes (text : List Char) : Except WideRun Bytes :=
  match wideRun? text with
  | some run => .error run
  | none => .ok (text.map fun c => UInt8.ofNat c.toNat)

def WideRun.message (run : WideRun) : String :=
  let place :=
    match run.chars with
    | [c] =>
        "character '" ++ String.ofList (numericEscape c.toNat) ++ "' in position "
          ++ toString run.start
    | chars =>
        "characters in position " ++ toString run.start ++ "-"
          ++ toString (run.start + chars.length - 1)
  "'latin-1' codec can't encode " ++ place ++ ": ordinal not in range(256)"

end Text

end RomStrings
