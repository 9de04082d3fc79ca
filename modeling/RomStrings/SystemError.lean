import RomStrings.FileStore
import RomStrings.Text.Quoted

/-!
Errors of the operating system, as they are shown: a number, a reason, and the file concerned.
-/

namespace RomStrings

/-- An error of the operating system, with as much as is known about it. -/
inductive SystemError where
  | bare
  | worded (text : String)
  | numbered (number : Int) (reason : String) (file : Option String)
  deriving DecidableEq, Repr

namespace SystemError

def text : SystemError → String
  | .bare => ""
  | .worded text => text
  | .numbered number reason none => "[Errno " ++ toString number ++ "] " ++ reason
  | .numbered number reason (some file) =>
      "[Errno " ++ toString number ++ "] " ++ reason ++ ": " ++ Text.quoted file

/-- The reason alone, or the whole text if none is given. -/
def cause (error : SystemError) : String :=
  match error with
  | .numbered _ reason _ => if reason = "" then error.text else reason
  | _ => error.text

/-- The file concerned. An empty name is none. -/
def file? : SystemError → Option String
  | .numbered _ _ (some file) => if file = "" then none else some file
  | _ => none

/-- The error for a path that cannot be used. -/
def ofFault (path : Path) : FileFault → SystemError
  | .notFound => .numbered 2 "No such file or directory" (some path.text)
  | .isFolder => .numbered 21 "Is a directory" (some path.text)
  | .notFolder => .numbered 20 "Not a directory" (some path.text)
  | .nameTooLong => .numbered 36 "File name too long" (some path.text)
  | .zeroInName => .worded "embedded null byte"

end SystemError

end RomStrings
