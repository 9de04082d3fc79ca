import RomStrings.Rom.Table

/-!
Where a block's bytes lie in ROM. A literal may be a whole ROM string or the tail of a longer one;
a function's name has to be a whole string.
-/

namespace RomStrings.Rom

/-- How a byte string was found. -/
inductive MatchKind where
  | exact
  | suffix
  deriving DecidableEq, Repr

def MatchKind.text : MatchKind → String
  | .exact => "exact"
  | .suffix => "suffix"

/-- A byte string found in ROM: where, how, and inside which string. -/
structure Match where
  address : Address
  kind : MatchKind
  romString : Bytes
  deriving DecidableEq, Repr

namespace Table

/-- The data as a whole string. -/
def matchExact (table : Table) (data : Bytes) : Option Match :=
  (table.lookup data).map fun address => { address, kind := .exact, romString := data }

/-- The data as the tail of a longer string. -/
def matchSuffix (table : Table) (data : Bytes) : Option Match :=
  (table.findSuffix data).map fun found =>
    { address := found.address, kind := .suffix, romString := found.romString }

/-- Where a literal is: as a whole string if it is one, else as a tail. -/
def matchLiteral (table : Table) (data : Bytes) : Option Match :=
  table.matchExact data <|> table.matchSuffix data

/-- Where a function's name is: as a whole string. -/
def matchFunction (table : Table) (data : Bytes) : Option Match :=
  table.matchExact data

end Table

end RomStrings.Rom
