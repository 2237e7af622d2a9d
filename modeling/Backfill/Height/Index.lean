/-
This file detects the missing ranges of anything that knows which heights it holds.
-/

import Backfill.Height.Gaps
import Backfill.Replica.Fault

namespace Backfill

/-- An index over a state of type `σ` answers which heights the state holds. -/
structure HeightIndex (σ : Type) where
  /-- The ranges between the heights that are present, ascending. -/
  interior : σ → Except ReplicaError (List HeightRange)
  /-- The lowest height that is present. -/
  lowest : σ → Except ReplicaError (Option Nat)
  /-- Whether a height is present. -/
  holds : σ → Nat → Except ReplicaError Bool

/-- Every missing range of a state, unless the ranges are out of order. -/
def HeightIndex.detectGaps {σ : Type} (index : HeightIndex σ) (fromGenesis : Bool) (state : σ) :
    Except ReplicaError (List HeightRange) := do
  match ← index.lowest state with
  | none => return []
  | some lowest =>
      let interior ← index.interior state
      let gaps := (if fromGenesis then (rangeBelow? lowest).toList else []) ++ interior
      match gapConflict? gaps with
      | some conflict => throw (.gapOrder conflict.message)
      | none => return gaps

end Backfill
