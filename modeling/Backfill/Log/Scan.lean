/-
This file scans a binary log for the blocks of a range of heights.
-/

import Backfill.Acquisition.Consumer
import Backfill.Log.Reader
import Std.Data.ExtTreeSet

namespace Backfill

/-- A set of heights. -/
abbrev HeightSet := Std.ExtTreeSet Nat

/-- A scan stops for one of these reasons. -/
inductive ScanStop
  | complete
  | endOfLog
  | boundExceeded
  | decodeLimit
deriving DecidableEq, Repr

/-- The name of a reason in events. -/
def ScanStop.text : ScanStop → String
  | .complete => "Complete"
  | .endOfLog => "EndOfLog"
  | .boundExceeded => "BoundExceeded"
  | .decodeLimit => "DecodeLimit"

/-- A scan ends when it stops, when the log cannot be read on, or when the consumer fails. -/
inductive ScanEnd
  | stopped (stop : ScanStop)
  | unreadable (cause : LogError)
  | refused (cause : RunError)
deriving DecidableEq, Repr

/-- A scan counts the positions it visited, the damaged ones among them and the blocks of heights
it had already found. -/
structure ScanProgress where
  visited : Nat
  damaged : Nat
  duplicates : Nat
  found : HeightSet

/-- Nothing is visited before a scan. -/
def ScanProgress.blank : ScanProgress :=
  ⟨0, 0, 0, ∅⟩

/-- The result of a scan of a range. -/
structure ScanResult where
  range : HeightRange
  progress : ScanProgress
  ending : ScanEnd

namespace ScanResult

/-- The number of heights that were found. -/
def foundCount (result : ScanResult) : Nat :=
  result.progress.found.size

/-- The last position that was visited, or the first one if none was. -/
def lastPosition (result : ScanResult) : Nat :=
  result.range.start + (result.progress.visited - 1)

/-- The first heights from `height` to `stop` that are not in a set, at most `limit` of them and
in at most `steps` steps. -/
def absentFrom (found : HeightSet) (stop : Nat) : Nat → Nat → Nat → List Nat
  | 0, _, _ => []
  | _ + 1, 0, _ => []
  | steps + 1, limit + 1, height =>
      if stop < height then []
      else if found.contains height then absentFrom found stop steps (limit + 1) (height + 1)
      else height :: absentFrom found stop steps limit (height + 1)

/-- The first heights of the range that were not found, ascending. -/
def missing (result : ScanResult) (limit : Nat) : List Nat :=
  absentFrom result.progress.found result.range.stop (result.foundCount + limit) limit
    result.range.start

/-- The number of heights that were not found. -/
def missingCount (result : ScanResult) : Nat :=
  result.range.size - result.foundCount

end ScanResult

namespace LogReader

variable {κ : Type}

/-- The record at a position, unless its index entry gives a height outside the range. -/
def visit (reader : LogReader) (range : HeightRange) (position : Nat) :
    Except LogError (Option Record) := do
  let entry ← reader.entry position
  match entry.height with
  | some height =>
      if range.contains height then return some (← reader.recordAt position entry)
      else return none
  | none => return some (← reader.recordAt position entry)

/-- Whether a scan of a range looks for a record. -/
def isWanted (range : HeightRange) (record : Record) : Bool :=
  record.isBlock && range.contains record.height.toNat

/-- The event of a block whose height was already found. -/
def duplicateEvent (position : Nat) (record : Record) : Event :=
  ⟨.debug, .log, "duplicate block in log",
    [("position", .natural position), ("height", .natural record.height.toNat)]⟩

/-- The event of a damaged entry. -/
def damageEvent (position : Nat) (error : LogError) : Event :=
  ⟨.warn, .log, "skipping undecodable log entry",
    [("position", .natural position), ("error", .text error.message)]⟩

/-- The event of the end of a scan. -/
def scanEvent (range : HeightRange) (progress : ScanProgress) (stop : ScanStop) : Event :=
  ⟨.info, .log, "binary log scan finished",
    Event.bounds range ++ [("found", .natural progress.found.size),
      ("scanned", .natural progress.visited), ("decode_errors", .natural progress.damaged),
      ("stop", .text stop.text)]⟩

/-- The scan from the position that comes after those visited on, when `left` entries remain. -/
def scanFrom (reader : LogReader) (consumer : Consumer κ) (range : HeightRange) :
    Nat → ScanProgress → κ → ScanResult × κ
  | left, progress, state =>
      if progress.found.size = range.size then (⟨range, progress, .stopped .complete⟩, state)
      else
        match left with
        | 0 => (⟨range, progress, .stopped .endOfLog⟩, state)
        | left + 1 =>
            let position := range.start + progress.visited
            if reader.settings.lastPosition range < position then
              (⟨range, progress, .stopped .boundExceeded⟩, state)
            else
              let next := { progress with visited := progress.visited + 1 }
              match reader.visit range position with
              | .ok none => reader.scanFrom consumer range left next state
              | .ok (some record) =>
                  let height := record.height.toNat
                  if !isWanted range record then reader.scanFrom consumer range left next state
                  else if progress.found.contains height then
                    reader.scanFrom consumer range left
                      { next with duplicates := progress.duplicates + 1 }
                      (consumer.log (duplicateEvent position record) state)
                  else
                    let next := { next with found := progress.found.insert height }
                    match consumer.consume record state with
                    | (.ok (), state) => reader.scanFrom consumer range left next state
                    | (.error cause, state) => (⟨range, next, .refused cause⟩, state)
              | .error error =>
                  if !error.isSkippable then (⟨range, next, .unreadable error⟩, state)
                  else
                    let next := { next with damaged := progress.damaged + 1 }
                    let state := consumer.log (damageEvent position error) state
                    if reader.settings.maxDecodeErrors.toNat < next.damaged then
                      (⟨range, next, .stopped .decodeLimit⟩, state)
                    else reader.scanFrom consumer range left next state

/-- The first block of each height of a range is handed on in the order of the log from the position
of the range's start on. -/
def scan (reader : LogReader) (consumer : Consumer κ) (range : HeightRange) (state : κ) :
    ScanResult × κ :=
  let (result, state) :=
    reader.scanFrom consumer range (reader.entries - range.start) .blank state
  match result.ending with
  | .stopped stop => (result, consumer.log (scanEvent range result.progress stop) state)
  | _ => (result, state)

end LogReader

end Backfill
