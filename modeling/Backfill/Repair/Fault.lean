/-
This file names what can end a run and what can go wrong with one range of it.
-/

import Backfill.Config.Fault
import Backfill.Height.Gaps
import Backfill.Log.Fault
import Backfill.Replica.Fault

namespace Backfill

/-- The step of a transaction that failed. -/
inductive CommitStage
  | begin
  | commit
deriving DecidableEq, Repr

/-- The text of a step. -/
def CommitStage.text : CommitStage → String
  | .begin => "begin"
  | .commit => "commit"

/-- A run ends for one of these reasons. -/
inductive RunError
  | config (cause : ConfigError)
  | replica (cause : ReplicaError)
  | log (cause : LogError)
  | commit (stage : CommitStage) (cause : ReplicaError)
  | runtime (detail : String)
  | panicked (detail : String)
deriving DecidableEq, Repr

/-- This is the wording of the end of a run. -/
def RunError.message : RunError → String
  | .config cause => s!"Config error: {cause.message}"
  | .replica cause => s!"Replica error: {cause.message}"
  | .log cause => s!"Binary log error: {cause.message}"
  | .commit stage cause => s!"Commit failed during {stage.text}: {cause.message}"
  | .runtime detail => s!"Runtime error: {detail}"
  | .panicked detail => s!"Task panicked: {detail}"

/-- The most heights that a failure lists. -/
def listedHeights : Nat := 10

/-- One range fails for one of these reasons while the run goes on. -/
inductive RangeFailure
  | unavailable (reason : String)
  | partly (listed : List Nat) (count : Nat)
  | missing (listed : List Nat) (count : Nat)
  | corrupt (errors lastPosition : Nat)
deriving DecidableEq, Repr

/-- The failure of a range names the range. -/
structure RangeError where
  range : HeightRange
  failure : RangeFailure
deriving DecidableEq, Repr

/-- The text of a list of heights. -/
def heightsText (heights : List Nat) : String :=
  "[" ++ ", ".intercalate (heights.map toString) ++ "]"

namespace RangeError

/-- Heights that failed are listed in ascending order, each once. -/
def ofHeights (range : HeightRange) (failed : List Nat) : RangeError :=
  let heights := sortedHeights failed
  ⟨range, .partly (heights.take listedHeights) heights.length⟩

/-- The stable name of the kind of a failure. -/
def kind (error : RangeError) : String :=
  match error.failure with
  | .unavailable _ => "source_unavailable"
  | .partly _ _ => "partial_range_failure"
  | .missing _ _ => "missing_heights"
  | .corrupt _ _ => "decode_corruption"

/-- This is the wording of a failure. -/
def message (error : RangeError) : String :=
  let range := error.range.text
  match error.failure with
  | .unavailable reason => s!"no source could serve {range}: {reason}"
  | .partly listed count => s!"{count} heights in {range} failed (first: {heightsText listed})"
  | .missing listed count =>
      s!"{count} heights in {range} not found in binary log (first: {heightsText listed})"
  | .corrupt errors lastPosition =>
      s!"binary log scan for {range} aborted after {errors} decode errors (last position {lastPosition})"

end RangeError

end Backfill
