import RomStrings.CommandLine.Run

/-!
The command itself. The files and folders that the arguments may name are read into a store, the
command line runs on it, and the files that it changed are written.
-/

namespace RomStrings.CommandLine

/-- The places that a path leads through, starting from a folder. -/
def placesThrough (start : Place) (parts : List String) : List Place :=
  match parts with
  | [] => [start]
  | part :: rest =>
      start :: placesThrough (if part = ".." then start.dropLast else start ++ [part]) rest

/-- The texts among arguments that may name files. -/
def namedFiles (given : List String) : List String :=
  match Arguments.ofList given with
  | .ok arguments => arguments.others ++ arguments.settings.map Setting.value
  | .error _ => []

/-- The text of a place. -/
def placeText (place : Place) : String :=
  "/" ++ "/".intercalate place

/-- Read what is at a place into a store. -/
def readPlace (store : FileStore) (place : Place) : IO FileStore := do
  let path := (← IO.currentDir).join (placeText place)
  if ← path.isDir then
    return { store with folders := place :: store.folders }
  else if ← path.pathExists then
    return store.put place (← IO.FS.readBinFile path).toList
  else
    return store

/-- Read all that the arguments may name into a store. -/
def readStore (given : List String) : IO FileStore := do
  let working := (Path.ofString (← IO.currentDir).toString).parts
  let mut store : FileStore := { working }
  for text in namedFiles given do
    let path := Path.ofString text
    let start := if path.root = "" then working else []
    for place in placesThrough start path.parts do
      store ← readPlace store place
  return store

/-- Write the files of a store that differ from an earlier one. -/
def writeChanges (before after : FileStore) : IO Unit := do
  for (place, data) in after.files do
    if before.files.lookup place ≠ some data then
      IO.FS.writeBinFile ((← IO.currentDir).join (placeText place)) ⟨data.toArray⟩

/-- Run the arguments on the files of the machine. -/
def runOnFiles (given : List String) : IO Screen := do
  let store ← readStore given
  let screen := run store given
  writeChanges store screen.store
  return screen

end RomStrings.CommandLine

/-- Run the command line of this process. -/
def main (given : List String) : IO UInt32 := do
  let screen ←
    try
      RomStrings.CommandLine.runOnFiles given
    catch error =>
      let trouble := RomStrings.CommandLine.Trouble.system (.worded (toString error))
      pure
        { exit := trouble.exitCode
          out := []
          err := [.message (trouble.message "")]
          store := {} }
  let out ← IO.getStdout
  let err ← IO.getStderr
  out.putStr (RomStrings.CommandLine.streamText (← out.isTty) screen.out)
  err.putStr (RomStrings.CommandLine.streamText (← err.isTty) screen.err)
  return UInt32.ofNat screen.exit.number
