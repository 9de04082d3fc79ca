import RomStrings.Text.Quoted

/-!
What a run is told besides its input: the mark that starts an annotation, and the name that
messages give the input. A mark is never empty and holds no blank, so an annotation line shows
where its mark ends.
-/

namespace RomStrings

open Text

/-- A text that may start an annotation. -/
def isCommentMark (mark : String) : Bool :=
  !mark.toList.isEmpty && !mark.toList.any isBlank

/-- Settings of a run. -/
structure Options where
  comment : String := "@"
  file : String := "<input>"
  accepted : isCommentMark comment = true := by decide

/-- A text that cannot start an annotation. -/
structure CommentError where
  mark : String
  deriving DecidableEq, Repr

def CommentError.message (e : CommentError) : String :=
  "invalid comment character " ++ quoted e.mark

/-- Settings with the given mark, if it may start an annotation. -/
def Options.withComment (comment file : String) : Except CommentError Options :=
  if accepted : isCommentMark comment = true then
    .ok { comment, file, accepted }
  else
    .error { mark := comment }

end RomStrings
