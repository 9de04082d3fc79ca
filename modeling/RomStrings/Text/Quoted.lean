import RomStrings.Text.Characters
import RomStrings.Text.Numeral

/-!
Quoted text, as messages show a value that the user gave: one line of visible characters between
quotes, with escapes for the rest.
-/

namespace RomStrings.Text

/-- The quote put around a text: an apostrophe, unless the text holds one and no double quote. -/
def quoteFor (text : List Char) : Char :=
  if text.contains '\'' && !text.contains '"' then '"' else '\''

/-- The numeric escape of a code point: two, four or eight hexadecimal digits, as few as do. -/
def numericEscape (n : Nat) : List Char :=
  if n < 0x100 then '\\' :: 'x' :: paddedHex 2 n
  else if n < 0x10000 then '\\' :: 'u' :: paddedHex 4 n
  else '\\' :: 'U' :: paddedHex 8 n

/-- One character between the given quotes. -/
def quotedChar (quote c : Char) : List Char :=
  if c = quote ∨ c = '\\' then ['\\', c]
  else if c = '\t' then ['\\', 't']
  else if c = '\n' then ['\\', 'n']
  else if c = '\r' then ['\\', 'r']
  else if isVisible c then [c]
  else numericEscape c.toNat

/-- The text between quotes, on one line. -/
def quoted (text : String) : String :=
  let quote := quoteFor text.toList
  String.ofList (quote :: text.toList.flatMap (quotedChar quote) ++ [quote])

end RomStrings.Text
