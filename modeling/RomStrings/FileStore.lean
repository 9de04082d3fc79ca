import RomStrings.Path
import RomStrings.Text.Latin1

/-!
Folders and files, and what a path names among them. A path is followed one component at a time,
and every component but the last has to lead to a folder.
-/

namespace RomStrings

/-- A place among folders and files: the components from the root. -/
abbrev Place := List String

/-- The folder that paths start from, and the folders and files there are. A folder is there too if
something is in it.
-/
structure FileStore where
  working : Place := []
  folders : List Place := []
  files : List (Place × Bytes) := []
  deriving DecidableEq, Repr

/-- What is at a place. -/
inductive Entry where
  | folder
  | file (data : Bytes)
  deriving DecidableEq, Repr

/-- Why a path cannot be used. -/
inductive FileFault where
  | notFound
  | isFolder
  | notFolder
  | nameTooLong
  | zeroInName
  deriving DecidableEq, Repr

namespace FileStore

/-- Something is at the place or below it. -/
def isFolder (store : FileStore) (place : Place) : Bool :=
  place.isEmpty || place.isPrefixOf store.working || store.folders.any place.isPrefixOf
    || store.files.any fun file => place.isPrefixOf file.1

def entry? (store : FileStore) (place : Place) : Option Entry :=
  match store.files.lookup place with
  | some data => some (.file data)
  | none => if store.isFolder place then some .folder else none

/-- The most bytes that a component may have. -/
def maxNameBytes : Nat := 255

/-- The most bytes that a path may have. -/
def maxPathBytes : Nat := 4095

/-- Follow one component from a place. -/
def step (store : FileStore) (place : Place) (part : String) : Except FileFault Place :=
  match store.entry? place with
  | none => .error .notFound
  | some (.file _) => .error .notFolder
  | some .folder =>
      if part = "" ∨ part = "." then .ok place
      else if part = ".." then .ok place.dropLast
      else if maxNameBytes < part.utf8ByteSize then .error .nameTooLong
      else .ok (place ++ [part])

/-- Follow components from the folder that they start from. -/
def follow (store : FileStore) (absolute : Bool) (parts : List String) : Except FileFault Place :=
  parts.foldlM store.step (if absolute then [] else store.working)

/-- The place that a path names. Nothing has to be there. -/
def locate (store : FileStore) (path : Path) : Except FileFault Place :=
  if path.parts.any fun part => part.toList.contains '\x00' then .error .zeroInName
  else if maxPathBytes < path.text.utf8ByteSize then .error .nameTooLong
  else store.follow (path.root ≠ "") path.parts

/-- The place that a text names as it stands, with the demand for a folder that a slash at its end
makes. An empty text names nothing.
-/
def locateText (store : FileStore) (given : String) : Except FileFault Place :=
  if given = "" then .error .notFound
  else
    store.follow (Path.rootOf given.toList ≠ "")
      ((Text.split '/' given.toList).map String.ofList)

/-- What a text names, if anything is there. -/
def find? (store : FileStore) (given : String) : Option Entry :=
  match store.locateText given with
  | .ok place => store.entry? place
  | .error _ => none

/-- The path names a folder. -/
def holdsFolder (store : FileStore) (path : Path) : Bool :=
  match store.locate path with
  | .ok place => store.entry? place = some .folder
  | .error _ => false

/-- The contents of a file. -/
def read (store : FileStore) (path : Path) : Except FileFault Bytes :=
  match store.locate path with
  | .error fault => .error fault
  | .ok place =>
      match store.entry? place with
      | none => .error .notFound
      | some .folder => .error .isFolder
      | some (.file data) => .ok data

/-- The place of a file that is to be written, whether it is there yet or not. -/
def target (store : FileStore) (path : Path) : Except FileFault Place :=
  match store.locate path with
  | .error fault => .error fault
  | .ok place => if store.entry? place = some .folder then .error .isFolder else .ok place

/-- Put contents at a place among files. -/
def putFile (place : Place) (data : Bytes) : List (Place × Bytes) → List (Place × Bytes)
  | [] => [(place, data)]
  | (other, old) :: rest =>
      if other = place then (place, data) :: rest else (other, old) :: putFile place data rest

def put (store : FileStore) (place : Place) (data : Bytes) : FileStore :=
  { store with files := putFile place data store.files }

end FileStore

end RomStrings
