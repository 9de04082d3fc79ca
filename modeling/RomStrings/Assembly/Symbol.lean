import RomStrings.Text.Characters

/-!
Symbols of assembly: an ASCII letter, underscore, dot or dollar sign, then word characters, dots
and dollar signs. A symbol is read as far as it goes.
-/

namespace RomStrings.Assembly

open Text

/-- A character that may start a symbol. -/
def isSymbolStart (c : Char) : Bool :=
  ('A' ≤ c && c ≤ 'Z') || ('a' ≤ c && c ≤ 'z') || c = '_' || c = '.' || c = '$'

/-- A character that may continue a symbol. -/
def isSymbolChar (c : Char) : Bool :=
  isWord c || c = '.' || c = '$'

/-- The symbol that the text starts with, and what follows it. -/
def symbol? : List Char → Option (String × List Char)
  | [] => none
  | c :: rest =>
      if isSymbolStart c then
        some (String.ofList (c :: rest.takeWhile isSymbolChar), rest.dropWhile isSymbolChar)
      else
        none

/-- The rest of a line that starts with the given characters. -/
def after? (start text : List Char) : Option (List Char) :=
  if start.isPrefixOf text then some (text.drop start.length) else none

def isRestBlank (text : List Char) : Bool :=
  text.all isBlank

end RomStrings.Assembly
