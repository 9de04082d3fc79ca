import RomStrings.Address

/-!
The addresses that labels have been given. A label that is given a second address keeps its place
and loses the first one.
-/

namespace RomStrings

/-- Labels with their addresses, in the order in which each was first resolved. -/
abbrev Resolution := List (String × Address)

namespace Resolution

/-- Give a label an address. -/
def insert : Resolution → String → Address → Resolution
  | [], label, address => [(label, address)]
  | (other, old) :: rest, label, address =>
      if other = label then (label, address) :: rest
      else (other, old) :: insert rest label address

def insertAll (resolution : Resolution) (pairs : List (String × Address)) : Resolution :=
  pairs.foldl (fun found pair => found.insert pair.1 pair.2) resolution

def ofPairs (pairs : List (String × Address)) : Resolution :=
  insertAll [] pairs

def find? (resolution : Resolution) (label : String) : Option Address :=
  List.lookup label resolution

end Resolution

end RomStrings
