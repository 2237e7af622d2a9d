/-
This file reads and writes height ranges as JSON.
-/

import Backfill.Datum.Shape
import Backfill.Height.Range
import Backfill.Json.Value

namespace Backfill.HeightRange

/-- The bounds of a range before they are compared. -/
structure Draft where
  start : Option Nat
  stop : Option Nat

/-- A range is a structure of two words. -/
def shape : Shape Draft HeightRange where
  title := "struct Raw"
  fields := [
    .required "start" (Datum.readNat "u64" 64) fun value draft => { draft with start := some value },
    .required "end" (Datum.readNat "u64" 64) fun value draft => { draft with stop := some value }]
  blank := ⟨none, none⟩
  finish draft := do
    let start ← requireField "start" draft.start
    let stop ← requireField "end" draft.stop
    (ofBounds start stop).mapError fun pair => .rejected pair.message

/-- The value of a range. -/
def toJson (range : HeightRange) : Json.Value :=
  .table [("start", .natural range.start), ("end", .natural range.stop)]

end Backfill.HeightRange
