/-
This file derives the missing ranges of heights from the heights that are present, and collapses
lists of heights into ranges.
-/

import Backfill.Height.Range

namespace Backfill

/-- Two neighbouring ranges that are not in ascending order with a height between them. -/
structure GapConflict where
  first : HeightRange
  second : HeightRange
deriving DecidableEq, Repr

/-- This is the wording of a conflict. -/
def GapConflict.message (conflict : GapConflict) : String :=
  s!"{conflict.first.text} followed by {conflict.second.text}"

/-- The first two neighbours of a list that touch, overlap or descend. -/
def gapConflict? : List HeightRange → Option GapConflict
  | first :: second :: rest =>
      if second.start ≤ first.stop + 1 then some ⟨first, second⟩
      else gapConflict? (second :: rest)
  | _ => none

/-- The range below a height, if there is any. -/
def rangeBelow? (height : Nat) : Option HeightRange :=
  if 0 < height then some ⟨0, height - 1, Nat.zero_le _⟩ else none

/-- The range strictly between two heights, if there is any. -/
def rangeBetween? (lower upper : Nat) : Option HeightRange :=
  if room : lower + 1 < upper then some ⟨lower + 1, upper - 1, by omega⟩ else none

/-- The ranges between neighbours of a list of heights. -/
def interiorGaps : List Nat → List HeightRange
  | lower :: upper :: rest => (rangeBetween? lower upper).toList ++ interiorGaps (upper :: rest)
  | _ => []

/-- The ranges missing from an ascending list of heights, from its lowest height on or from height
zero on. -/
def gapsOfHeights (fromGenesis : Bool) (heights : List Nat) : List HeightRange :=
  match heights with
  | [] => []
  | lowest :: _ =>
      (if fromGenesis then (rangeBelow? lowest).toList else []) ++ interiorGaps heights

/-- The number of heights in all ranges together. -/
def totalSize (ranges : List HeightRange) : Nat :=
  ranges.foldr (fun range total => range.size + total) 0

/-- A height above all others joins the last range, which is held first, when it follows it
directly. -/
def appendHeight (ranges : List HeightRange) (height : Nat) : List HeightRange :=
  match ranges with
  | last :: before =>
      if next : last.stop + 1 = height then
        ⟨last.start, height, by have := last.ordered; omega⟩ :: before
      else .single height :: ranges
  | [] => [.single height]

/-- A list without neighbours of equal value. -/
def dropRepeats {α : Type} [DecidableEq α] : List α → List α
  | first :: second :: rest =>
      if first = second then dropRepeats (second :: rest)
      else first :: dropRepeats (second :: rest)
  | values => values

/-- The heights of a list in ascending order, each once. -/
def sortedHeights (heights : List Nat) : List Nat :=
  dropRepeats (heights.mergeSort (· ≤ ·))

/-- The fewest ranges that hold exactly the heights of a list. -/
def collapse (heights : List Nat) : List HeightRange :=
  ((sortedHeights heights).foldl appendHeight []).reverse

example : collapse [7, 5, 6, 10, 5] = [⟨5, 7, by decide⟩, ⟨10, 10, by decide⟩] := by cbv

example : gapsOfHeights true [3, 3, 6] = [⟨0, 2, by decide⟩, ⟨4, 5, by decide⟩] := by rfl

end Backfill
