/-
This file repairs a store: it plans the ranges, acquires each of them and commits what it gives.
-/

import Backfill.Acquisition.Remote
import Backfill.Acquisition.Shortfall
import Backfill.Repair.Committer
import Backfill.Repair.Report

namespace Backfill

/-- A repairer fills a store with states of type `σ` from a fetcher, which workers may share, and
from a log if there is one. -/
structure Repairer (σ : Type) where
  settings : RepairSettings
  fetcher : Fetcher
  log : Option LogReader
  store : Store σ
  schedule : Schedule

namespace Repairer

variable {σ κ : Type}

/-- The cadence of the repairer's commits. -/
def cadence (repairer : Repairer σ) : Cadence :=
  repairer.settings.commits.cadence

/-- Records go to the committer over the store. -/
def consumer (repairer : Repairer σ) : Consumer (Committer σ) :=
  Committer.consumer repairer.store.toSink repairer.cadence

/-- The workers that share a window. -/
def crew (repairer : Repairer σ) : Crew :=
  ⟨repairer.settings.workers.toNat, repairer.schedule⟩

/-- The plan for a state of the store, for which nothing is fetched. -/
def plan (repairer : Repairer σ) (mode : RepairMode) (state : σ) :
    Except RunError (List PlannedRange) :=
  let planned := PlannedRange.ofRanges repairer.settings.thresholds repairer.log.isSome
  match mode with
  | .manual ranges => .ok (planned .manual ranges)
  | .missing =>
      match repairer.store.detectGaps repairer.settings.fromGenesis state with
      | .ok ranges => .ok (planned .detected ranges)
      | .error cause => .error (.replica cause)

/-- Acquires a range from the fetcher. -/
def fetchRemote (repairer : Repairer σ) (consumer : Consumer κ) (strategy : Strategy)
    (range : HeightRange) (state : κ) : Acquired × κ :=
  match strategy with
  | .sequential => repairer.fetcher.acquireSequential consumer range state
  | _ =>
      repairer.fetcher.acquireParallel consumer repairer.crew
        repairer.settings.fetchWindow.toNat range state

/-- The failure of a fetch that made up for what a log lacked is told of the whole range. -/
def fallbackFailed (range : HeightRange) (logError remoteError : RangeError) : RangeError :=
  match remoteError.failure with
  | .unavailable reason =>
      ⟨range, .unavailable s!"binary log: {logError.message}; remote: {reason}"⟩
  | .partly listed count => ⟨range, .partly listed count⟩
  | _ => remoteError

/-- Fetches the parts that a log lacked, up to the first part that fails. -/
def fetchParts (repairer : Repairer σ) (consumer : Consumer κ) (range : HeightRange)
    (logError : RangeError) : List HeightRange → Nat → κ → Acquired × κ
  | [], emitted, state => (.emitted emitted, state)
  | part :: rest, emitted, state =>
      let strategy := Strategy.select repairer.settings.thresholds false part.size
      match repairer.fetchRemote consumer strategy part state with
      | (.emitted count, state) =>
          repairer.fetchParts consumer range logError rest (emitted + count) state
      | (.failed remoteError, state) =>
          (.failed (fallbackFailed range logError remoteError), state)
      | (.ended cause, state) => (.ended cause, state)

/-- The event of a log that could not serve a whole range. -/
def fallbackEvent (range : HeightRange) (unresolved : Nat) (logError : RangeError) : Event :=
  ⟨.warn, .repair, "binary log could not serve the whole range; falling back to the remote API",
    Event.bounds range ++
      [("unresolved", .natural unresolved), ("error", .text logError.message)]⟩

/-- Acquires a range from a log and makes durable what it gave; then what it lacked is fetched. -/
def scanLog (repairer : Repairer σ) (consumer : Consumer κ) (reader : LogReader)
    (range : HeightRange) (state : κ) : Acquired × κ :=
  match reader.acquire consumer range state with
  | ((.failed logError, height :: more), state) =>
      let unresolved := height :: more
      let state := consumer.log (fallbackEvent range unresolved.length logError) state
      match consumer.checkpoint state with
      | (.error cause, state) => (.ended cause, state)
      | (.ok (), state) =>
          repairer.fetchParts consumer range logError (collapse unresolved)
            (range.size - unresolved.length) state
  | ((acquired, _), state) => (acquired, state)

/-- Acquires a planned range. -/
def acquire (repairer : Repairer σ) (consumer : Consumer κ) (planned : PlannedRange) (state : κ) :
    Acquired × κ :=
  match planned.strategy with
  | .logScan =>
      match repairer.log with
      | some reader => repairer.scanLog consumer reader planned.range state
      | none => (.failed ⟨planned.range, .unavailable "binary log not configured"⟩, state)
  | strategy => repairer.fetchRemote consumer strategy planned.range state

/-- The event of a range whose start is already present. -/
def skipEvent (range : HeightRange) : Event :=
  ⟨.warn, .repair, "gap start already present in replica; skipping", Event.bounds range⟩

/-- The event of the start of a range. -/
def startEvent (planned : PlannedRange) : Event :=
  ⟨.info, .repair, "repairing range", Event.bounds planned.range ++
    [("size", .natural planned.range.size), ("strategy", .text planned.strategy.text)]⟩

/-- The event of a range that failed, with the number of records that were written all the same
where the sources failed. -/
def failedEvent (range : HeightRange) (applied : Option Nat) (error : RangeError) : Event :=
  ⟨.warn, .repair, "range failed", Event.bounds range ++ [("kind", .text error.kind)] ++
    (applied.map fun count => ("applied", Json.Value.natural count)).toList ++
      [("error", .text error.message)]⟩

/-- The event of a range that is repaired. -/
def repairedEvent (range : HeightRange) (stats : CommitStats) : Event :=
  ⟨.info, .repair, "range repaired", Event.bounds range ++
    [("applied", .natural stats.applied), ("commits", .natural stats.commits)]⟩

/-- Ends a range of which `emitted` records were handed on, and which fails if the store refused
some of them. -/
def finishEmitted (repairer : Repairer σ) (range : HeightRange) (emitted : Nat)
    (committer : Committer σ) : Except RunError RangeOutcome × Committer σ :=
  match committer.finishRange repairer.store.toSink repairer.cadence with
  | (.error cause, committer) => (.error cause, committer)
  | (.ok stats, committer) =>
      if stats.failed.isEmpty then
        (.ok (.repaired emitted stats.applied stats.commits),
          committer.log (repairedEvent range stats))
      else
        let error := RangeError.ofHeights range stats.failed
        (.ok (.failed error), committer.log (failedEvent range none error))

/-- Ends a range that failed, and keeps what was handed on before the failure. -/
def finishFailed (repairer : Repairer σ) (range : HeightRange) (error : RangeError)
    (committer : Committer σ) : Except RunError RangeOutcome × Committer σ :=
  match committer.finishRange repairer.store.toSink repairer.cadence with
  | (.error cause, committer) => (.error cause, committer)
  | (.ok stats, committer) =>
      (.ok (.failed error), committer.log (failedEvent range (some stats.applied) error))

/-- Fills a planned range. -/
def fill (repairer : Repairer σ) (planned : PlannedRange) (committer : Committer σ) :
    Except RunError RangeOutcome × Committer σ :=
  let range := planned.range
  let committer :=
    (committer.log (startEvent planned)).beginRange range planned.origin.replaces
  match repairer.acquire repairer.consumer planned committer with
  | (.emitted emitted, committer) => repairer.finishEmitted range emitted committer
  | (.failed error, committer) => repairer.finishFailed range error committer
  | (.ended cause, committer) => (.error cause, committer)

/-- Whether a planned range is to be left out: it was found missing, but its start is there. -/
def isPresent (repairer : Repairer σ) (planned : PlannedRange) (state : σ) :
    Except ReplicaError Bool :=
  match planned.origin with
  | .manual => .ok false
  | .detected => repairer.store.holds state planned.range.start

/-- Repairs one planned range. -/
def repairRange (repairer : Repairer σ) (planned : PlannedRange) (committer : Committer σ) :
    Except RunError RangeOutcome × Committer σ :=
  match repairer.isPresent planned committer.sink with
  | .error cause => (.error (.replica cause), committer)
  | .ok true => (.ok (.skipped planned.range.start), committer.log (skipEvent planned.range))
  | .ok false => repairer.fill planned committer

/-- Repairs planned ranges in order, those after a range that failed as well, up to the end of the
run. -/
def repairRanges (repairer : Repairer σ) :
    List PlannedRange → Committer σ → Except RunError (List RangeReport) × Committer σ
  | [], committer => (.ok [], committer)
  | planned :: rest, committer =>
      match repairer.repairRange planned committer with
      | (.error cause, committer) => (.error cause, committer)
      | (.ok outcome, committer) =>
          match repairer.repairRanges rest committer with
          | (.error cause, committer) => (.error cause, committer)
          | (.ok reports, committer) => (.ok (⟨planned, outcome⟩ :: reports), committer)

/-- The event of a store in which nothing is missing. -/
def contiguousEvent : Event :=
  ⟨.info, .repair, "no missing heights found; replica is contiguous", []⟩

/-- The event of a plan. -/
def planEvent (repairer : Repairer σ) (plan : List PlannedRange) : Event :=
  ⟨.info, .repair, "repair plan ready",
    [("ranges", .natural plan.length),
      ("heights", .natural (totalSize (plan.map PlannedRange.range))),
      ("log_available", .boolean repairer.log.isSome)]⟩

/-- The event of the end of a run. -/
def reportEvent (report : RepairReport) (commits : Nat) : Event :=
  let repaired := ("repaired", Json.Value.natural report.repaired)
  let skipped := ("skipped", Json.Value.natural report.skipped)
  let applied := ("applied", Json.Value.natural report.applied)
  if report.isSuccess then
    ⟨.info, .repair, "repair finished",
      [repaired, skipped, applied, ("commits", .natural commits)]⟩
  else
    ⟨.error, .repair, "repair finished with failed ranges",
      [repaired, skipped, ("failed", .natural report.failures.length), applied]⟩

/-- Repairs every range of a plan that is not empty. -/
def runPlan (repairer : Repairer σ) (plan : List PlannedRange) (committer : Committer σ) :
    Except RunError RepairReport × Committer σ :=
  match repairer.repairRanges plan (committer.log (repairer.planEvent plan)) with
  | (.error cause, committer) => (.error cause, committer)
  | (.ok ranges, committer) =>
      (.ok ⟨ranges⟩, committer.log (reportEvent ⟨ranges⟩ committer.totalCommits))

/-- Repairs every planned range. -/
def run (repairer : Repairer σ) (mode : RepairMode) (committer : Committer σ) :
    Except RunError RepairReport × Committer σ :=
  match repairer.plan mode committer.sink with
  | .error cause => (.error cause, committer)
  | .ok [] => (.ok ⟨[]⟩, committer.log contiguousEvent)
  | .ok plan => repairer.runPlan plan committer

end Repairer

end Backfill
