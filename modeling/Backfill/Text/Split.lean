/-
This file cuts a text at a mark.
-/

namespace Backfill.Text

/-- The pieces between the marks; there is one more piece than there are marks. -/
def splitOn (mark : Char) : List Char → List (List Char)
  | [] => [[]]
  | character :: rest =>
      if character = mark then [] :: splitOn mark rest
      else
        match splitOn mark rest with
        | [] => [[character]]
        | piece :: more => (character :: piece) :: more

/-- What stands before the first mark and what stands after it, if there is a mark. -/
def cutAt? (mark : Char) (text : List Char) : Option (List Char × List Char) :=
  match text.dropWhile (· ≠ mark) with
  | [] => none
  | _ :: rest => some (text.takeWhile (· ≠ mark), rest)

example : splitOn '.' "a..b".toList = ["a".toList, [], "b".toList] := by decide

example : cutAt? '=' "k=v=w".toList = some ("k".toList, "v=w".toList) := by decide

end Backfill.Text
