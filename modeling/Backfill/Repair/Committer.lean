/-
This file writes records to a sink in batches and commits them at intervals.
-/

import Backfill.Acquisition.Consumer
import Backfill.Repair.Settings
import Backfill.Replica.Sink
import Backfill.Text.Tenths

namespace Backfill

/-- A cadence says how many applied records make a transaction, and how many records make a
batch. -/
structure Cadence where
  interval : Nat
  batchSize : Nat
  intervalPositive : 0 < interval := by omega
  batchPositive : 0 < batchSize := by omega
deriving DecidableEq, Repr

/-- The cadence of settings; zero counts as one. -/
def CommitSettings.cadence (settings : CommitSettings) : Cadence :=
  ⟨max settings.interval.toNat 1, max settings.batchSize.toNat 1, by omega, by omega⟩

/-- What was written of a range, with the heights of refused records last one first. -/
structure CommitStats where
  applied : Nat
  commits : Nat
  failed : List Nat
deriving DecidableEq, Repr

/-- Nothing is written before a range. -/
def CommitStats.blank : CommitStats :=
  ⟨0, 0, []⟩

/-- A committer over a sink with states of type `σ` buffers records, the last one first, until
they make a batch, and keeps a journal of what happened, the last first. -/
structure Committer (σ : Type) where
  sink : σ
  range : Option HeightRange
  update : Bool
  buffer : List Record
  inTransaction : Bool
  sinceCommit : Nat
  stats : CommitStats
  totalCommits : Nat
  journal : List Activity

namespace Committer

variable {σ : Type}

/-- A committer before its first range. -/
def new (sink : σ) : Committer σ :=
  ⟨sink, none, false, [], false, 0, .blank, 0, []⟩

/-- The committer after something happened. -/
def note (activity : Activity) (committer : Committer σ) : Committer σ :=
  { committer with journal := activity :: committer.journal }

/-- The committer after an event. -/
def log (event : Event) (committer : Committer σ) : Committer σ :=
  committer.note (.event event)

/-- The committer after several events. -/
def logAll (events : List Event) (committer : Committer σ) : Committer σ :=
  events.foldl (fun committer event => committer.log event) committer

/-- The events that were logged, in order. -/
def events (committer : Committer σ) : List Event :=
  committer.journal.reverse.filterMap Activity.event?

/-- The heights that were asked for, in order. -/
def requested (committer : Committer σ) : List Nat :=
  committer.journal.reverse.filterMap Activity.height?

/-- Starts a range without what is buffered, but in the open transaction if there is one. -/
def beginRange (range : HeightRange) (update : Bool) (committer : Committer σ) : Committer σ :=
  { committer with
    range := some range
    update
    buffer := []
    sinceCommit := 0
    stats := .blank }

/-- The committer after records were applied. -/
def noteApplied (sink : Sink σ) (count : Nat) (committer : Committer σ) : Committer σ :=
  logAll (sink.applied count) { committer with
    stats := { committer.stats with applied := committer.stats.applied + count }
    sinceCommit := committer.sinceCommit + count }

/-- The event of a batch that was refused. -/
def batchEvent (batch : List Record) (cause : ReplicaError) : Event :=
  ⟨.warn, .committer, "batch apply failed; retrying records one by one",
    (batch.head?.map fun record => ("first_height", Json.Value.natural record.height.toNat)).toList ++
      [("records", .natural batch.length), ("error", .text cause.message)]⟩

/-- The event of a single record that was refused. -/
def recordEvent (record : Record) (cause : ReplicaError) : Event :=
  ⟨.warn, .committer, "failed to apply record",
    [("height", .natural record.height.toNat), ("kind", .text record.kind.text),
      ("key", .text record.keyText), ("error", .text cause.message)]⟩

/-- Applies a single record; a refusal is remembered. -/
def applyOne (sink : Sink σ) (committer : Committer σ) (record : Record) : Committer σ :=
  match sink.apply committer.update [record] committer.sink with
  | (.ok (), next) => noteApplied sink 1 { committer with sink := next }
  | (.error cause, next) =>
      log (recordEvent record cause) { committer with
        sink := next
        stats := { committer.stats with
          failed := record.height.toNat :: committer.stats.failed } }

/-- Applies a batch, record by record if it is refused as a whole. -/
def applyBatch (sink : Sink σ) (batch : List Record) (committer : Committer σ) : Committer σ :=
  match sink.apply committer.update batch committer.sink with
  | (.ok (), next) => noteApplied sink batch.length { committer with sink := next }
  | (.error cause, next) =>
      batch.foldl (applyOne sink) (log (batchEvent batch cause) { committer with sink := next })

/-- The share of the expected records that is applied, in percent. -/
def percentText (applied expected : Nat) : String :=
  if expected = 0 then "100.0"
  else Text.tenthsText (Float.ofNat applied / Float.ofNat expected * 100.0)

/-- The event of a commit. -/
def commitEvent (committer : Committer σ) : Event :=
  let expected := (committer.range.map HeightRange.size).getD 0
  ⟨.info, .committer, "committed backfill batch",
    ((committer.range.map Event.bounds).getD []) ++
      [("applied", .natural committer.stats.applied), ("expected", .natural expected),
        ("percent", .text (percentText committer.stats.applied expected)),
        ("commits", .natural committer.stats.commits)]⟩

/-- Ends the transaction, which is rolled back if it cannot be made durable. -/
def commit (sink : Sink σ) (committer : Committer σ) : Except RunError Unit × Committer σ :=
  match sink.commit committer.sink with
  | (.ok (), next) =>
      let committer := { committer with
        sink := next
        inTransaction := false
        sinceCommit := 0
        stats := { committer.stats with commits := committer.stats.commits + 1 }
        totalCommits := committer.totalCommits + 1 }
      (.ok (), committer.log committer.commitEvent)
  | (.error cause, next) =>
      let committer := { committer with sink := next, inTransaction := false }
      match sink.rollback committer.sink with
      | (.ok (), next) => (.error (.commit .commit cause), { committer with sink := next })
      | (.error second, next) =>
          (.error (.commit .commit cause), log
            ⟨.warn, .committer, "rollback after failed commit also failed",
              [("error", .text second.message)]⟩ { committer with sink := next })

/-- Opens a transaction unless one is open. -/
def openTransaction (sink : Sink σ) (committer : Committer σ) :
    Except RunError Unit × Committer σ :=
  if committer.inTransaction then (.ok (), committer)
  else
    match sink.begin committer.sink with
    | (.ok (), next) => (.ok (), { committer with sink := next, inTransaction := true })
    | (.error cause, next) => (.error (.commit .begin cause), { committer with sink := next })

/-- Applies what is buffered, and commits when the interval is reached. -/
def flush (sink : Sink σ) (cadence : Cadence) (committer : Committer σ) :
    Except RunError Unit × Committer σ :=
  if committer.buffer.isEmpty then (.ok (), committer)
  else
    match committer.openTransaction sink with
    | (.error cause, committer) => (.error cause, committer)
    | (.ok (), committer) =>
        let committer :=
          applyBatch sink committer.buffer.reverse { committer with buffer := [] }
        if cadence.interval ≤ committer.sinceCommit then committer.commit sink
        else (.ok (), committer)

/-- Applies what is buffered and ends the open transaction, if there is one. -/
def commitPending (sink : Sink σ) (cadence : Cadence) (committer : Committer σ) :
    Except RunError Unit × Committer σ :=
  match committer.flush sink cadence with
  | (.error cause, committer) => (.error cause, committer)
  | (.ok (), committer) =>
      if committer.inTransaction then committer.commit sink else (.ok (), committer)

/-- An insert is written as an upsert, so that writing it again does no harm. -/
def repeatable (record : Record) : Record :=
  match record.operation with
  | .insert => { record with operation := .upsert }
  | _ => record

/-- A batch has records of one operation only: a record of another one applies those before it. -/
def makeRoom (sink : Sink σ) (cadence : Cadence) (operation : Operation)
    (committer : Committer σ) : Except RunError Unit × Committer σ :=
  match committer.buffer with
  | last :: _ =>
      if last.operation = operation then (.ok (), committer) else committer.flush sink cadence
  | [] => (.ok (), committer)

/-- Takes one record, and applies the batch when it is full. -/
def push (sink : Sink σ) (cadence : Cadence) (record : Record) (committer : Committer σ) :
    Except RunError Unit × Committer σ :=
  let record := repeatable record
  match committer.makeRoom sink cadence record.operation with
  | (.error cause, committer) => (.error cause, committer)
  | (.ok (), committer) =>
      let committer := { committer with buffer := record :: committer.buffer }
      if cadence.batchSize ≤ committer.buffer.length then committer.flush sink cadence
      else (.ok (), committer)

/-- Ends a range: commits what is pending and gives the statistics, with the heights of refused
records ascending, each once. -/
def finishRange (sink : Sink σ) (cadence : Cadence) (committer : Committer σ) :
    Except RunError CommitStats × Committer σ :=
  match committer.commitPending sink cadence with
  | (.error cause, committer) => (.error cause, committer)
  | (.ok (), committer) =>
      (.ok { committer.stats with failed := sortedHeights committer.stats.failed },
        { committer with range := none, stats := .blank })

/-- Committers as consumers of records. -/
def consumer (sink : Sink σ) (cadence : Cadence) : Consumer (Committer σ) where
  consume := push sink cadence
  checkpoint := commitPending sink cadence
  note := note

end Committer

end Backfill
