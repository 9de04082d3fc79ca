import RomStrings.Address

/-!
The lines that stand in for string storage: the old lines as annotations, then the symbols defined
as addresses.
-/

namespace RomStrings.Assembly

/-- A line kept as an annotation. -/
def annotated (mark line : String) : String :=
  mark ++ " " ++ line

/-- A line that defines a symbol as an address. -/
def definition (symbol : String) (address : Address) : String :=
  symbol ++ " = " ++ Address.text address

/-- The symbols that move with a string: its anchor if it has one, then its label. -/
def movedSymbols (label : String) (anchor : Option String) : List String :=
  anchor.toList ++ [label]

/-- The name of an anchor, where an empty one means that there is none. -/
def anchorNamed (name : String) : Option String :=
  if name = "" then none else some name

/-- What is written in place of string storage that ROM holds at the address. -/
def replacement (mark : String) (lines : List String) (label : String) (anchor : Option String)
    (address : Address)
    : List String :=
  lines.map (annotated mark)
    ++ (movedSymbols label anchor).map fun symbol => definition symbol address

end RomStrings.Assembly
