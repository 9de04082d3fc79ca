import RomStrings.CommandLine.Invocation
import RomStrings.CommandLine.Report

/-!
Running a command line: the lines for both streams, the exit code, and the files afterwards.
-/

namespace RomStrings.CommandLine

/-- What running a command line comes to. -/
structure Screen where
  exit : ExitCode
  out : List Line
  err : List Line
  store : FileStore

def usage : String :=
  "Usage: romdedup [OPTIONS] ROM_BASE ROM_IMAGE ASSEMBLY"

/-- What `--version` shows. -/
def versionText : String :=
  "romdedup, version 1.0.0"

/-- What `--help` shows. -/
def helpLines : List String :=
  [usage,
    "",
    "  Replace ROM-resident strings in an assembly file with ROM addresses.",
    "",
    "  ROM_BASE is the address the ROM image is mapped at (decimal or 0x hex).",
    "  ROM_IMAGE is the binary ROM image. ASSEMBLY is the compiler output (.s, .S",
    "  or .asm), rewritten in place unless -o is given.",
    "",
    "  Examples:",
    "      romdedup 0x800000 rom.bin main.s",
    "      romdedup -o out.s 0x800000 rom.bin main.s",
    "",
    "Options:",
    "  -o, --output FILE        Write the result here instead of overwriting",
    "                           ASSEMBLY",
    "  -c, --comment-char TEXT  Inline comment prefix of the target assembler",
    "                           [default: @]",
    "  --stats                  Print a summary of resolved strings",
    "  -v, --verbose            Verbose output",
    "  --version                Show the version and exit.",
    "  --help                   Show this message and exit."]

/-- The lines for a usage error. One about the value of an option stands alone. -/
def UsageError.lines (error : UsageError) : List String :=
  let line := "Error: " ++ error.message
  match error with
  | .arguments (.valueMissing _) => [line]
  | .arguments (.valueUnexpected _) => [line]
  | _ => [usage, "Try 'romdedup --help' for help.", "", line]

/-- The line for a note, if it is shown at all. -/
def noteLine? (verbose : Bool) (note : Note) : Option Line :=
  match verbose, note.level with
  | true, .debug => some (.note ("DEBUG: " ++ note.text))
  | true, .info => some (.note ("INFO: " ++ note.text))
  | false, .info => some (.note note.text)
  | false, .debug => none

/-- What kind of trouble a failed job is. -/
def troubleOf (failure : FileJob.Failure) : Trouble :=
  match failure with
  | .romFolder _ => .tool failure.message
  | .base _ => .tool failure.message
  | .file _ .zeroInName => .internal failure.message
  | .file path fault => .system (SystemError.ofFault path fault)
  | .comment _ => .internal failure.message
  | .input _ _ => .input failure.message
  | .unwritable _ => .internal failure.message

def Invocation.run (invocation : Invocation) (store : FileStore) : Screen :=
  let job := invocation.job
  let outcome := job.run store
  let opening :=
    if invocation.verbose then
      [Line.message ("ROM image " ++ job.rom.text ++ " at " ++ Address.text job.base),
        .message ("Rewriting " ++ job.assembly.text ++ "...")]
    else
      []
  let notes := outcome.notes.filterMap (noteLine? invocation.verbose)
  match outcome.result with
  | .ok stats =>
      { exit := .success
        out := opening
          ++ (if invocation.stats || invocation.verbose then [.message stats.summary] else [])
        err := notes
        store := outcome.store }
  | .error failure =>
      let trouble := troubleOf failure
      { exit := trouble.exitCode
        out := opening
        err := notes ++ [.message (trouble.message "Rewrite")]
        store := outcome.store }

def run (store : FileStore) (given : List String) : Screen :=
  match Command.ofList store given with
  | .error error =>
      { exit := .invalidArguments, out := [], err := error.lines.map .message, store }
  | .ok .help => { exit := .success, out := helpLines.map .message, err := [], store }
  | .ok .version => { exit := .success, out := [.message versionText], err := [], store }
  | .ok (.run invocation) => invocation.run store

end RomStrings.CommandLine
