import RomStrings.Address
import RomStrings.Note
import RomStrings.Rom.Chunk
import RomStrings.Rom.Distinct
import RomStrings.Rom.LastOffset

/-!
The table of a ROM image's strings. A string that occurs more than once keeps the place of its
first occurrence in the table's order and has the address of its last. A byte string may also be
found as the tail of a longer string.
-/

namespace RomStrings.Rom

/-- The strings of an image in image order, and where the image is mapped. -/
structure Table where
  base : Nat
  size : Nat
  chunks : List Chunk
  deriving Repr

/-- A tail of a longer string: the string, its address, and how many bytes of it come before. -/
structure SuffixMatch where
  romString : Bytes
  romAddress : Address
  skip : Nat
  deriving DecidableEq, Repr

def SuffixMatch.address (m : SuffixMatch) : Address :=
  m.romAddress + m.skip

/-- A base at which no image can be mapped. -/
structure BaseError where
  base : Int
  deriving DecidableEq, Repr

def BaseError.message (e : BaseError) : String :=
  "ROM base address must not be negative (" ++ toString e.base ++ ")"

namespace Table

/-- The table of an image mapped at a base. -/
def ofImage (image : Bytes) (base : Nat) : Table :=
  { base, size := image.length, chunks := Rom.chunks image }

/-- The table of an image mapped at a base that may turn out negative. -/
def load (image : Bytes) : Int → Except BaseError Table
  | .ofNat base => .ok (ofImage image base)
  | base@(.negSucc _) => .error { base }

def addressAt (table : Table) (offset : Nat) : Address :=
  (table.base + offset : Nat)

/-- The address of a whole string, at its last occurrence. -/
def lookup (table : Table) (data : Bytes) : Option Address :=
  (table.chunks.reverse.find? fun chunk => chunk.bytes == data).map fun chunk =>
    table.addressAt chunk.offset

/-- The string is longer than the data and ends with it. -/
def endsWith (data : Bytes) (chunk : Chunk) : Bool :=
  data.length < chunk.bytes.length && data.isSuffixOf chunk.bytes

/-- The first longer string that ends with the data. No string ends with nothing. -/
def findSuffix (table : Table) (data : Bytes) : Option SuffixMatch :=
  if data.isEmpty then
    none
  else do
    let chunk ← table.chunks.find? (endsWith data)
    let romAddress ← table.lookup chunk.bytes
    return { romString := chunk.bytes, romAddress, skip := chunk.bytes.length - data.length }

/-- The distinct strings, in the order in which each first occurs. -/
def strings (table : Table) : List Bytes :=
  distinct (table.chunks.map Chunk.bytes)

def entries (table : Table) : List (Bytes × Address) :=
  let offsets := lastOffsets table.chunks
  table.strings.filterMap fun data =>
    offsets[data]?.map fun offset => (data, table.addressAt offset)

/-- Every distinct string is listed with the address at which it is looked up. -/
theorem entries_eq (table : Table)
    : table.entries
      = table.strings.filterMap fun data => (table.lookup data).map fun address =>
          (data, address) := by
  simp [entries, lookup, getElem?_lastOffsets, Function.comp_def]

def summary (table : Table) : String :=
  "RomStringTable(base=" ++ Address.text table.base ++ ", strings="
    ++ toString table.strings.length ++ ", size=" ++ toString table.size ++ ")"

end Table

/-- What is said while an image is read into a table. -/
def loadNotes (image : Bytes) (table : Table) : List Note :=
  let rest := trailing image
  let ignored :=
    if rest.isEmpty then []
    else [Note.debug ("Ignoring " ++ toString rest.length ++ " trailing bytes without NUL")]
  ignored
    ++ [Note.debug ("Indexed " ++ toString table.strings.length ++ " strings from "
      ++ toString table.size ++ " bytes at base " ++ Address.text table.base)]

end RomStrings.Rom
