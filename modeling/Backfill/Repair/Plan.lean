/-
This file plans how each missing range is acquired.
-/

import Backfill.Acquisition.Strategy
import Backfill.Height.Json

namespace Backfill

/-- A range was found missing, or was named by the operator. -/
inductive RangeOrigin
  | detected
  | manual
deriving DecidableEq, Repr

/-- The name of an origin. -/
def RangeOrigin.text : RangeOrigin → String
  | .detected => "detected"
  | .manual => "manual"

/-- Rows that are there are replaced only in ranges that the operator named. -/
def RangeOrigin.replaces : RangeOrigin → Bool
  | .detected => false
  | .manual => true

/-- A repair fills the missing ranges, or the ranges that the operator names. -/
inductive RepairMode
  | missing
  | manual (ranges : List HeightRange)
deriving DecidableEq, Repr

/-- A planned range has a strategy and an origin. -/
structure PlannedRange where
  range : HeightRange
  strategy : Strategy
  origin : RangeOrigin
deriving DecidableEq, Repr

namespace PlannedRange

/-- The plan for ranges of one origin. -/
def ofRanges (thresholds : Thresholds) (hasLog : Bool) (origin : RangeOrigin)
    (ranges : List HeightRange) : List PlannedRange :=
  ranges.map fun range => ⟨range, .select thresholds hasLog range.size, origin⟩

/-- The value of a planned range. -/
def toJson (planned : PlannedRange) : Json.Value :=
  .table [
    ("range", planned.range.toJson),
    ("strategy", .text planned.strategy.text),
    ("origin", .text planned.origin.text)]

end PlannedRange

end Backfill
