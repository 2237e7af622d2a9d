/-
This file joins and takes apart the paths of files.
-/

import Backfill.Text.Split

namespace Backfill.Path

/-- Whether a path starts at the root. -/
def isAbsolute (path : String) : Bool :=
  path.toList.head? = some '/'

/-- A name below a directory, unless it is absolute and stands for itself. -/
def join (directory name : String) : String :=
  if isAbsolute name then name
  else
    match directory.toList.getLast? with
    | none => name
    | some '/' => directory ++ name
    | some _ => directory ++ "/" ++ name

/-- The characters without the slashes at their end. -/
def dropSlashes (path : List Char) : List Char :=
  (path.reverse.dropWhile (· = '/')).reverse

/-- The directory that a path names something in, which is empty for a bare name. -/
def parent? (path : String) : Option String :=
  match dropSlashes path.toList with
  | [] => none
  | inner =>
      let above := (inner.reverse.dropWhile (· ≠ '/')).reverse
      if !above.isEmpty && (dropSlashes above).isEmpty then some "/"
      else some (String.ofList (dropSlashes above))

/-- The steps of a path; repeated slashes and steps to the same place count for nothing. -/
def steps (path : String) : List String :=
  ((Text.splitOn '/' path.toList).filter fun step => step ≠ [] && step ≠ ['.']).map String.ofList

example : join "a/" "b" = "a/b" := by cbv

example : parent? "a//b/" = some "a" ∧ parent? "b" = some "" ∧ parent? "/b" = some "/" := by decide

end Backfill.Path
