import RomStrings.Options
import RomStrings.Reference
import RomStrings.Scan.Scanner
import RomStrings.Text.Lines

/-!
The whole job on a text: find the strings that ROM holds, define their labels as addresses, and
resolve the references to them. A text with a fault is left as it is, and so are the results of the
last text that had none.
-/

namespace RomStrings

/-- The lines that replace an input, the addresses that its labels were given, and the counts. -/
structure Replacement where
  lines : List String
  resolution : Resolution
  stats : Stats
  deriving DecidableEq, Repr

namespace Replacement

/-- The output of a scan before references are resolved. -/
def scanned (mark : String) (segments : List Segment) : Replacement :=
  { lines := Segments.output mark segments
    resolution := Segments.resolution segments
    stats := Segments.stats segments }

/-- The references that are resolved in an output. -/
def references (mark : String) (scanned : Replacement) : Reference.Resolved :=
  Reference.resolveAll mark scanned.resolution scanned.lines

/-- The output with its references resolved. -/
def withReferences (mark : String) (scanned : Replacement) : Replacement :=
  let resolved := scanned.references mark
  { scanned with
    lines := resolved.lines
    stats := { scanned.stats with references := scanned.stats.references + resolved.count } }

/-- What replaces an input of the given segments. -/
def ofSegments (mark : String) (segments : List Segment) : Replacement :=
  (scanned mark segments).withReferences mark

def ofHistory (options : Options) (history : Scan.History) : Except Scan.Error Replacement :=
  history.outcome.map (ofSegments options.comment)

def ofLines (table : Rom.Table) (options : Options) (lines : List String)
    : Except Scan.Error Replacement :=
  ofHistory options (Scan.history table lines)

/-- What is said while the lines of a scan are replaced, whether that succeeds or not. -/
def notes (options : Options) (history : Scan.History) : List Note :=
  let settled := Segments.notes options.file history.segments
  match history.outcome with
  | .error _ => settled
  | .ok segments =>
      let scanned := scanned options.comment segments
      settled ++ Reference.notes scanned.resolution (scanned.references options.comment)

def linesOf (framed : Text.Framed) : List String :=
  framed.lines.map String.ofList

/-- The replaced text, framed as the given one. -/
def text (framed : Text.Framed) (replacement : Replacement) : String :=
  String.ofList ({ framed with lines := replacement.lines.map String.toList } : Text.Framed).text

/-- What replaces a text, with the text itself. -/
def ofText (table : Rom.Table) (options : Options) (text : String)
    : Except Scan.Error (String × Replacement) :=
  let framed := Text.frame text.toList
  (ofLines table options (linesOf framed)).map fun replacement =>
    (replacement.text framed, replacement)

end Replacement

/-- A replacer keeps the addresses and counts of the last text that it replaced. -/
structure Replacer where
  table : Rom.Table
  options : Options
  resolution : Resolution := []
  stats : Stats := {}

/-- Replace one more text. A fault leaves the replacer as it is. -/
def Replacer.replace (replacer : Replacer) (text : String) : Except Scan.Error String × Replacer :=
  match Replacement.ofText replacer.table replacer.options text with
  | .error fault => (.error fault, replacer)
  | .ok (output, replacement) =>
      (.ok output,
        { replacer with resolution := replacement.resolution, stats := replacement.stats })

end RomStrings
