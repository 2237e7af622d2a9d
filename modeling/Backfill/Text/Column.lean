/-
This file sets texts in columns.
-/

namespace Backfill.Text

/-- A text with blanks after it up to a width. -/
def padRight (width : Nat) (text : String) : String :=
  text ++ String.ofList (List.replicate (width - text.length) ' ')

/-- A text with blanks before it up to a width. -/
def padLeft (width : Nat) (text : String) : String :=
  String.ofList (List.replicate (width - text.length) ' ') ++ text

example : padRight 4 "ab" ++ padLeft 3 "c" = "ab    c" := by decide

end Backfill.Text
