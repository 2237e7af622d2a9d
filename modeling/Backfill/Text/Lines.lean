/-
This file cuts a text into lines.
-/

namespace Backfill.Text

/-- The lines of a text, each without the line feed, or the carriage return and the line feed, that
ends it. -/
def lines : List Char → List (List Char)
  | [] => []
  | '\n' :: rest => [] :: lines rest
  | '\r' :: '\n' :: rest => [] :: lines rest
  | character :: rest =>
      match lines rest with
      | [] => [[character]]
      | line :: more => (character :: line) :: more

example : lines "a\r\n\nb\r".toList = ["a".toList, [], "b\r".toList] := by decide

end Backfill.Text
