/-
This file acquires the records of a range from a log, and says which heights the log lacked.
-/

import Backfill.Log.Scan

namespace Backfill

namespace ScanResult

/-- The heights of the range that were not found, ascending. -/
def unresolved (result : ScanResult) : List Nat :=
  result.range.heights.filter fun height => !result.progress.found.contains height

/-- What a scan comes to, and the heights that another source may still serve. -/
def close (result : ScanResult) : Acquired × List Nat :=
  match result.ending with
  | .stopped .complete => (.emitted result.foundCount, [])
  | .stopped .decodeLimit =>
      (.failed ⟨result.range, .corrupt result.progress.damaged result.lastPosition⟩, [])
  | .stopped .endOfLog | .stopped .boundExceeded =>
      (.failed ⟨result.range, .missing (result.missing listedHeights) result.missingCount⟩,
        result.unresolved)
  | .unreadable cause =>
      (.failed ⟨result.range, .unavailable cause.message⟩, result.unresolved)
  | .refused cause => (.ended cause, [])

end ScanResult

/-- Acquires a range by a scan of a log. -/
def LogReader.acquire {κ : Type} (reader : LogReader) (consumer : Consumer κ) (range : HeightRange)
    (state : κ) : (Acquired × List Nat) × κ :=
  let (result, state) := reader.scan consumer range state
  (result.close, state)

end Backfill
