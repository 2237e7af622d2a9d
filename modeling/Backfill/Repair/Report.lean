/-
This file reports what became of each planned range.
-/

import Backfill.Repair.Fault
import Backfill.Repair.Plan

namespace Backfill

/-- A range is repaired, skipped because its first height is present, or failed. -/
inductive RangeOutcome
  | repaired (emitted applied commits : Nat)
  | skipped (height : Nat)
  | failed (error : RangeError)
deriving DecidableEq, Repr

/-- This is the wording of the reason to skip a range. -/
def skipText (height : Nat) : String :=
  s!"height {height} already present"

/-- A planned range with its outcome. -/
structure RangeReport where
  planned : PlannedRange
  outcome : RangeOutcome
deriving DecidableEq, Repr

/-- The report of a run has an entry for each planned range, in the order of the plan. -/
structure RepairReport where
  ranges : List RangeReport
deriving DecidableEq, Repr

namespace RangeOutcome

/-- Whether a range was repaired. -/
def isRepaired : RangeOutcome → Bool
  | .repaired _ _ _ => true
  | _ => false

/-- Whether a range was skipped. -/
def isSkipped : RangeOutcome → Bool
  | .skipped _ => true
  | _ => false

/-- The failure of a range. -/
def failure? : RangeOutcome → Option RangeError
  | .failed error => some error
  | _ => none

/-- The number of records that were written of a repaired range. -/
def applied : RangeOutcome → Nat
  | .repaired _ applied _ => applied
  | _ => 0

end RangeOutcome

namespace RepairReport

/-- The outcomes in the order of the plan. -/
def outcomes (report : RepairReport) : List RangeOutcome :=
  report.ranges.map RangeReport.outcome

/-- The number of repaired ranges. -/
def repaired (report : RepairReport) : Nat :=
  report.outcomes.countP RangeOutcome.isRepaired

/-- The number of skipped ranges. -/
def skipped (report : RepairReport) : Nat :=
  report.outcomes.countP RangeOutcome.isSkipped

/-- The failures of ranges. -/
def failures (report : RepairReport) : List RangeError :=
  report.outcomes.filterMap RangeOutcome.failure?

/-- The number of records that were written of repaired ranges. -/
def applied (report : RepairReport) : Nat :=
  report.outcomes.foldr (fun outcome total => outcome.applied + total) 0

/-- Whether no range failed. -/
def isSuccess (report : RepairReport) : Bool :=
  report.failures.isEmpty

/-- The exit code of a run. -/
def exitCode (report : RepairReport) : Nat :=
  if report.isSuccess then 0 else 1

end RepairReport

end Backfill
