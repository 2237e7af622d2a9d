/-
This file reads listings of heights: one height per line, with blank lines and comments.
-/

import Backfill.Config.Fault
import Backfill.File.Fault
import Backfill.Height.Gaps
import Backfill.Text.Blank
import Backfill.Text.Decimal
import Backfill.Text.Lines
import Backfill.Text.Quoted
import Backfill.Text.Utf8
import Backfill.Word

namespace Backfill

/-- A listing is refused for one of these reasons. -/
inductive ListingFault
  | unreadable (cause : FileFault)
  | badLine (number : Nat) (line : String) (cause : Text.NumberFault)
  | noHeights
deriving DecidableEq, Repr

namespace Listing

/-- A line without its blanks gives nothing when it is empty or a comment, else a height. -/
def readLine (number : Nat) (line : List Char) : Except ListingFault (Option Nat) :=
  match Text.trimChars line with
  | [] => .ok none
  | '#' :: _ => .ok none
  | trimmed =>
      match Text.readNat maxWord trimmed with
      | .ok height => .ok (some height)
      | .error cause => .error (.badLine number (String.ofList trimmed) cause)

/-- The heights of lines numbered from `number` on; the first bad line decides the fault. -/
def readLines : Nat → List (List Char) → Except ListingFault (List Nat)
  | _, [] => .ok []
  | number, line :: rest => do
      let height ← readLine number line
      let heights ← readLines (number + 1) rest
      return height.toList ++ heights

/-- The heights of a listing in the order of its lines. -/
def heights (text : List Char) : Except ListingFault (List Nat) :=
  readLines 1 (Text.lines text)

/-- The ranges of a listing, which has to name a height. -/
def ranges (content : Except FileFault (List UInt8)) : Except ListingFault (List HeightRange) := do
  let bytes ← content.mapError .unreadable
  match Text.Utf8.decode? bytes with
  | none => throw (.unreadable .notText)
  | some text =>
      match ← heights text with
      | [] => throw .noHeights
      | listed => return collapse listed

end Listing

/-- The configuration error that a fault of the listing at `path` amounts to. -/
def ListingFault.toConfigError (path : String) : ListingFault → ConfigError
  | .unreadable cause => .readFailed path cause.message
  | .badLine number line cause =>
      .validation s!"heights file line {number}: {Text.quote line} is not a height ({cause.message})"
  | .noHeights => .validation s!"heights file {path} contains no heights"

end Backfill
