/-
This file names what can go wrong with a file.
-/

namespace Backfill

/-- A file operation fails for one of these reasons. -/
inductive FileFault
  | notFound
  | alreadyExists
  | notDirectory
  | isDirectory
  | notText
  | endOfData
  | other (reason : String)
deriving DecidableEq, Repr

/-- This is the wording of a fault; the numbered ones are the system's own. -/
def FileFault.message : FileFault → String
  | .notFound => "No such file or directory (os error 2)"
  | .alreadyExists => "File exists (os error 17)"
  | .notDirectory => "Not a directory (os error 20)"
  | .isDirectory => "Is a directory (os error 21)"
  | .notText => "stream did not contain valid UTF-8"
  | .endOfData => "failed to fill whole buffer"
  | .other reason => reason

end Backfill
