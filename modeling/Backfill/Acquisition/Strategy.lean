/-
This file chooses where the records of a range come from.
-/

import Backfill.Repair.Settings

namespace Backfill

/-- A range is fetched height by height, fetched by several workers, or read from a log. -/
inductive Strategy
  | sequential
  | parallel
  | logScan
deriving DecidableEq, Repr

namespace Strategy

/-- The name of a strategy. -/
def text : Strategy → String
  | .sequential => "sequential_remote"
  | .parallel => "parallel_remote"
  | .logScan => "log_scan"

/-- The strategy for a range of a given size, where only the largest ones are worth the scan of a
log. -/
def select (thresholds : Thresholds) (hasLog : Bool) (size : Nat) : Strategy :=
  if size ≤ thresholds.sequential.toNat then .sequential
  else if size ≤ thresholds.parallel.toNat || !hasLog then .parallel
  else .logScan

end Strategy

end Backfill
