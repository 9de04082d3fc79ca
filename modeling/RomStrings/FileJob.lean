import RomStrings.Replacement
import RomStrings.SystemError
import RomStrings.Text.Latin1

/-!
The whole job on files: read a ROM image and an assembly file, and write the replaced text. All
that can be wrong with the input shows before anything is written.
-/

namespace RomStrings

/-- A job: where the image is mapped, the files to read, the file to write if it is another one,
and the mark of annotations.
-/
structure FileJob where
  base : Int
  rom : Path
  assembly : Path
  output : Option Path := none
  comment : String := "@"
  deriving DecidableEq, Repr

namespace FileJob

/-- Why a job fails. -/
inductive Failure where
  | romFolder (path : Path)
  | base (error : Rom.BaseError)
  | file (path : Path) (fault : FileFault)
  | comment (error : CommentError)
  | input (name : String) (error : Scan.Error)
  | unwritable (wide : Text.WideRun)
  deriving DecidableEq, Repr

def target (job : FileJob) : Path :=
  job.output.getD job.assembly

/-- The text of a file, with a line feed for every line break. -/
def fileText (data : Bytes) : String :=
  String.ofList (Text.unifyBreaks (Text.latin1Text data))

/-- The table of a job's image, with what is said about it. -/
def loadTable (job : FileJob) (store : FileStore) : Except Failure (Noted Rom.Table) :=
  if store.holdsFolder job.rom then .error (.romFolder job.rom)
  else
    match store.read job.rom with
    | .error fault => .error (.file job.rom fault)
    | .ok image =>
        match Rom.Table.load image job.base with
        | .error error => .error (.base error)
        | .ok table =>
            .ok
              { notes := Rom.loadNotes image table
                  ++ [Note.info ("Loaded " ++ toString table.strings.length ++ " ROM strings from "
                    ++ job.rom.text)]
                value := table }

/-- The text of a job's assembly file, and the settings of the run. -/
def loadAssembly (job : FileJob) (store : FileStore) : Except Failure (Options × String) :=
  match store.read job.assembly with
  | .error fault => .error (.file job.assembly fault)
  | .ok data =>
      match Options.withComment job.comment job.assembly.text with
      | .error error => .error (.comment error)
      | .ok options => .ok (options, fileText data)

/-- The replaced text of a job, with what is said up to that. -/
def prepare (job : FileJob) (store : FileStore)
    : Noted (Except Failure (String × Replacement)) :=
  match job.loadTable store with
  | .error failure => { notes := [], value := .error failure }
  | .ok { notes, value := table } =>
      match job.loadAssembly store with
      | .error failure => { notes, value := .error failure }
      | .ok (options, text) =>
          let framed := Text.frame text.toList
          let history := Scan.history table (Replacement.linesOf framed)
          { notes := notes ++ Replacement.notes options history
            value :=
              match Replacement.ofHistory options history with
              | .error error => .error (.input options.file error)
              | .ok replacement => .ok (replacement.text framed, replacement) }

/-- Write a text. The file is emptied before the text is turned into bytes. -/
def write (store : FileStore) (path : Path) (text : String) : FileStore × Except Failure Unit :=
  match store.target path with
  | .error fault => (store, .error (.file path fault))
  | .ok place =>
      match Text.latin1Bytes text.toList with
      | .error wide => (store.put place [], .error (.unwritable wide))
      | .ok data => (store.put place data, .ok ())

/-- What a job comes to: what was said, the files after it, and the counts. -/
structure Outcome where
  notes : List Note
  store : FileStore
  result : Except Failure Stats

/-- What is said about a job that is done. -/
def doneNote (job : FileJob) (stats : Stats) : Note :=
  Note.info ("Rewrote " ++ job.target.text ++ ": " ++ toString stats.totalResolved
    ++ " strings resolved, " ++ toString stats.bytesSaved ++ " bytes saved")

def run (job : FileJob) (store : FileStore) : Outcome :=
  let prepared := job.prepare store
  match prepared.value with
  | .error failure => { notes := prepared.notes, store, result := .error failure }
  | .ok (text, replacement) =>
      match write store job.target text with
      | (after, .error failure) =>
          { notes := prepared.notes, store := after, result := .error failure }
      | (after, .ok ()) =>
          { notes := prepared.notes ++ [job.doneNote replacement.stats]
            store := after
            result := .ok replacement.stats }

def Failure.message : Failure → String
  | .romFolder path => "ROM image '" ++ path.text ++ "' is a directory"
  | .base error => error.message
  | .file path fault => (SystemError.ofFault path fault).text
  | .comment error => error.message
  | .input name error => (error.diagnostic name).text
  | .unwritable wide => wide.message

end FileJob

end RomStrings
