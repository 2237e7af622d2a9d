/-
This file writes what commands print.
-/

import Backfill.Log.Coverage
import Backfill.Repair.Report
import Backfill.Text.Column

namespace Backfill.Command

/-- The text when nothing is missing. -/
def nothingMissing : String :=
  "No missing heights.\n"

/-- A range in the first column. -/
def rangeColumn (range : HeightRange) : String :=
  Text.padRight 24 range.text

/-- A range with its size. -/
def sizeColumns (range : HeightRange) : String :=
  s!"{rangeColumn range} {Text.padLeft 10 (toString range.size)} heights"

/-- The text of a plan. -/
def planText (plan : List PlannedRange) : String :=
  if plan.isEmpty then nothingMissing
  else String.join (plan.map fun planned =>
    s!"{sizeColumns planned.range}  {planned.strategy.text}\n")

/-- The text of an outcome. -/
def outcomeText : RangeOutcome → String
  | .repaired _ applied _ => s!"repaired ({applied} records)"
  | .skipped height => s!"skipped: {skipText height}"
  | .failed error => s!"FAILED: {error.message}"

/-- The text of a report. -/
def reportText (report : RepairReport) : String :=
  String.join (report.ranges.map fun entry =>
    s!"{rangeColumn entry.planned.range} {outcomeText entry.outcome}\n") ++
    s!"{report.repaired} repaired, {report.skipped} skipped, {report.failures.length} failed\n"

/-- What is missing from a replica, and the heights that it holds at most and at least. -/
structure GapSummary where
  gaps : List HeightRange
  lowest : Option Nat
  highest : Option Nat
deriving DecidableEq, Repr

namespace GapSummary

/-- The value of a gap. -/
def gapJson (gap : HeightRange) : Json.Value :=
  .table (Event.bounds gap ++ [("size", .natural gap.size)])

/-- The value of a summary. -/
def toJson (summary : GapSummary) : Json.Value :=
  .table [
    ("gaps", .list (summary.gaps.map gapJson)),
    ("total_missing", .natural (totalSize summary.gaps)),
    ("lowest_height", .optional .natural summary.lowest),
    ("highest_height", .optional .natural summary.highest)]

/-- The text of a summary. -/
def text (summary : GapSummary) : String :=
  if summary.gaps.isEmpty then nothingMissing
  else String.join (summary.gaps.map fun gap => s!"{sizeColumns gap}\n") ++
    s!"{totalSize summary.gaps} missing heights in {summary.gaps.length} gaps\n"

end GapSummary

/-- The most gaps of a log that are listed. -/
def listedGaps : Nat := 20

/-- The text of the span of heights. -/
def spanText (coverage : LogCoverage) : String :=
  match coverage.lowest, coverage.highest with
  | some lowest, some highest => s!"[{lowest}, {highest}]"
  | _, _ => "none"

/-- The text of a coverage. -/
def coverageText (coverage : LogCoverage) : String :=
  let row (name value : String) : String := s!"{Text.padRight 18 name} {value}\n"
  let more := coverage.gaps.length - listedGaps
  String.join [
    row "entries:" (toString coverage.entries),
    row "block records:" (toString coverage.blocks),
    row "other records:" (toString coverage.others),
    row "decode errors:" (toString coverage.damaged),
    row "distinct heights:" (toString coverage.distinct),
    row "duplicate heights:" (toString coverage.duplicates),
    row "height span:" (spanText coverage),
    row "missing heights:" (toString coverage.missing)] ++
    String.join ((coverage.gaps.take listedGaps).map fun gap => s!"  {gap.text}\n") ++
    if more = 0 then "" else s!"  ... {more} more gaps\n"

/-- A value for people to read, on lines of its own. -/
def jsonText (value : Json.Value) : String :=
  value.pretty ++ "\n"

end Backfill.Command
