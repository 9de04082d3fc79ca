import RomStrings.Rom.Match

/-!
Counts of what a run did. They add up: the counts of two runs in a row are the sums. Counting may
start anywhere, so a count is an integer.
-/

namespace RomStrings

/-- What a run did, in numbers. -/
structure Stats where
  exactMatches : Int := 0
  suffixMatches : Int := 0
  functionMatches : Int := 0
  unmatched : Int := 0
  abortedFunctions : Int := 0
  anchoredSections : Int := 0
  references : Int := 0
  bytesSaved : Int := 0
  deriving DecidableEq, Repr

namespace Stats

def add (a b : Stats) : Stats where
  exactMatches := a.exactMatches + b.exactMatches
  suffixMatches := a.suffixMatches + b.suffixMatches
  functionMatches := a.functionMatches + b.functionMatches
  unmatched := a.unmatched + b.unmatched
  abortedFunctions := a.abortedFunctions + b.abortedFunctions
  anchoredSections := a.anchoredSections + b.anchoredSections
  references := a.references + b.references
  bytesSaved := a.bytesSaved + b.bytesSaved

instance : Add Stats := ⟨add⟩

/-- The counts of one string taken from ROM: how it was found, whether it is a function's name, and
how many bytes it has.
-/
def ofMatch (kind : Rom.MatchKind) (isFunction : Bool) (size : Nat) : Stats :=
  if isFunction then { functionMatches := 1, bytesSaved := size }
  else
    match kind with
    | .suffix => { suffixMatches := 1, bytesSaved := size }
    | .exact => { exactMatches := 1, bytesSaved := size }

/-- Count one more string taken from ROM. -/
def record (stats : Stats) (kind : Rom.MatchKind) (isFunction : Bool) (size : Nat) : Stats :=
  stats + ofMatch kind isFunction size

def totalResolved (stats : Stats) : Int :=
  stats.exactMatches + stats.suffixMatches + stats.functionMatches

def summaryLine (title : String) (count : Int) : String :=
  "  " ++ title ++ ": " ++ toString count

/-- A line of the summary that is left out when there is nothing to count. -/
def summaryLineIfAny (title : String) (count : Int) : List String :=
  if count = 0 then [] else [summaryLine title count]

def summaryLines (stats : Stats) : List String :=
  ["Rewrite Statistics:"]
    ++ summaryLineIfAny "Exact matches" stats.exactMatches
    ++ summaryLineIfAny "Suffix matches" stats.suffixMatches
    ++ summaryLineIfAny "Function symbols" stats.functionMatches
    ++ summaryLineIfAny "Not in ROM" stats.unmatched
    ++ summaryLineIfAny "Function blocks skipped" stats.abortedFunctions
    ++ summaryLineIfAny "Anchored sections skipped" stats.anchoredSections
    ++ summaryLineIfAny "References rewritten" stats.references
    ++ [summaryLine "Total resolved" stats.totalResolved,
      summaryLine "Bytes saved" stats.bytesSaved]

def summary (stats : Stats) : String :=
  "\n".intercalate stats.summaryLines

end Stats

end RomStrings
