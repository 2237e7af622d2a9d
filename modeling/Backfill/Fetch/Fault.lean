/-
This file names what can go wrong when one height is fetched, and sums up the failures of a range.
-/

import Backfill.Repair.Fault

namespace Backfill

/-- A height cannot be fetched, and trying again may help or cannot help. -/
structure FetchError where
  transient : Bool
  height : Nat
  reason : String
deriving DecidableEq, Repr

namespace FetchError

/-- This is the wording of a failure. -/
def message (error : FetchError) : String :=
  let duration := if error.transient then "transient" else "permanent"
  s!"{duration} failure fetching height {error.height}: {error.reason}"

/-- A failure that trying again cannot help. -/
def permanent (height : Nat) (reason : String) : FetchError :=
  ⟨false, height, reason⟩

end FetchError

/-- The failures of a range make one failure, which says that the source is unavailable if it served
nothing and may yet recover. -/
def RangeError.ofFailures (range : HeightRange) (failures : List (Nat × FetchError))
    (fetched : Nat) : RangeError :=
  if fetched = 0 ∧ failures.all (·.2.transient) then
    ⟨range, .unavailable ((failures.head?.map (·.2.message)).getD "no heights fetched")⟩
  else .ofHeights range (failures.map Prod.fst)

end Backfill
