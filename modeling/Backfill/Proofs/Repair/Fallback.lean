/-
This file shows how the fetcher makes up for what a log lacks. What the log supplied is committed
first. Then the heights that it lacked are asked for, and no others.
-/

import Backfill.Log.Writer
import Backfill.Proofs.Acquisition.Shortfall
import Backfill.Proofs.Height.Separated
import Backfill.Proofs.Repair.Failures
import Backfill.Proofs.Repair.Requests

namespace Backfill.Repairer

open Committer

variable {σ : Type} {repairer : Repairer σ} {planned : PlannedRange}

/-- Ending a range asks for nothing. -/
theorem requestedConclude (planned : PlannedRange) (acquired : Acquired)
    (committer : Committer σ) :
    (repairer.conclude planned (acquired, committer)).2.requested = committer.requested := by
  have finish := requestedFinish repairer.store.toSink repairer.cadence committer
  cases acquired with
  | ended cause => rfl
  | failed error =>
      dsimp only [conclude, finishFailed]
      cases answer : committer.finishRange repairer.store.toSink repairer.cadence with
      | mk result after =>
          rw [answer] at finish
          cases result with
          | error cause => exact finish
          | ok stats => exact (requestedLog _ _).trans finish
  | emitted count =>
      dsimp only [conclude, finishEmitted]
      cases answer : committer.finishRange repairer.store.toSink repairer.cadence with
      | mk result after =>
          rw [answer] at finish
          cases result with
          | error cause => exact finish
          | ok stats =>
              dsimp only
              split <;> exact (requestedLog _ _).trans finish

section Clean

variable {before : Committer σ} (absent : repairer.isPresent planned before.sink = .ok false)
  (clean : (repairer.watched.repairRange planned before.watch).2.sink.Clean)

include absent

theorem fillWatchedOfAbsent :
    repairer.watched.repairRange planned before.watch =
      repairer.watched.conclude planned (repairer.watched.acquire repairer.watched.consumer planned
        (startRange planned before.watch)) := by
  have there : repairer.watched.isPresent planned before.watch.sink = .ok false :=
    (repairer.isPresentWatched planned _).trans absent
  rw [fillOfAbsent there, fillEq]

include clean

/-- If no transaction fails then all calls of a range are followed, and it asks for what these ask
for. -/
theorem requestedOfClean :
    (repairer.repairRange planned before).2.requested =
      before.requested ++ Deed.heights (Call.deeds (repairer.calls planned)) := by
  have same : repairer.repairRange planned before = _ :=
    repairer.repairRangeWatched planned before.watch
  have started : (startRange planned before.watch).requested = before.requested :=
    requestedLog before.watch _
  rw [fillWatchedOfAbsent absent] at clean same
  rw [same]
  show (repairer.watched.conclude _ _).2.requested = _
  have follows := (tracksCustody repairer.store.toSink).followLeaves repairer.cadence
    (repairer.calls planned) (holdsStart planned before)
  rw [watchedConsumer, watchedAcquire, Consumer.perform] at clean ⊢
  cases followed : (Committer.consumer repairer.store.toSink.watched repairer.cadence).follow
      (repairer.calls planned) (startRange planned before.watch) with
  | mk result taken =>
      rw [followed] at follows clean
      cases result with
      | error cause =>
          obtain ⟨_, _, _, _, unclean⟩ := follows
          exact absurd clean unclean
      | ok => rw [requestedConclude, requestedFollow _ _ followed, started]

/-- If no transaction fails then it is told how a range ends by its acquisition and by the records that
were refused. -/
theorem concludesOfClean : (∃ outcome, (repairer.repairRange planned before).1 = .ok outcome ∧
      Concludes planned.range (repairer.delivered planned before) (repairer.verdict planned)
        outcome) ∨
    ∃ cause, (repairer.repairRange planned before).1 = .error cause ∧
      repairer.verdict planned = .ended cause := by
  have same : repairer.repairRange planned before = _ :=
    repairer.repairRangeWatched planned before.watch
  have settles := repairer.watched.fillOfCustody False (tracksCustody repairer.store.toSink)
    planned before.watch (tracksStart planned before) False.elim
  have filled := fillWatchedOfAbsent absent
  rw [← fillEq] at filled
  rw [← filled] at settles
  cases answer : repairer.watched.repairRange planned before.watch with
  | mk result after =>
      rw [answer] at settles clean same
      cases result with
      | ok outcome =>
          obtain ⟨_, _, ends⟩ := settles
          exact .inl ⟨outcome, congrArg Prod.fst same,
            (concludesOfEnded (attemptedOfEnds ends) same).2⟩
      | error cause =>
          rcases settles with ⟨_, _, _, _, unclean⟩ | verdict
          · exact absurd clean unclean
          · exact .inr ⟨cause, congrArg Prod.fst same, verdictWatched planned ▸ verdict⟩

/-- If no transaction fails then a range fails as its acquisition failed. -/
theorem failedOfClean {error : RangeError} (verdict : repairer.verdict planned = .failed error) :
    (repairer.repairRange planned before).1 = .ok (.failed error) := by
  have concludes := concludesOfClean absent clean
  rw [verdict] at concludes
  rcases concludes with ⟨outcome, ended, concludes⟩ | ⟨cause, _, broken⟩
  · cases concludes with
    | failed => exact ended
  · cases broken

/-- If no transaction fails then a range is repaired exactly if it is acquired and the sink refuses
none of its records. -/
theorem repairedIff :
    (∃ emitted applied commits, (repairer.repairRange planned before).1 =
        .ok (.repaired emitted applied commits)) ↔
      (∃ emitted, repairer.verdict planned = .emitted emitted) ∧
        ∀ entry ∈ repairer.delivered planned before, entry.2 = true := by
  rw [← Delivery.refusedEqNil]
  rcases concludesOfClean absent clean with ⟨outcome, ended, concludes⟩ | ⟨cause, ended, broken⟩
  · rw [ended]
    generalize repairer.verdict planned = acquired at concludes
    cases concludes with
    | failed error => simp
    | repaired emitted commits none => simp [none]
    | rejected emitted some => simp [some]
  · simp [ended, broken]

end Clean

section Scan

variable {reader : LogReader} (log : repairer.log = some reader)
  (scans : planned.strategy = .logScan)

/-- What a log could not serve of a range. -/
def shortfall (reader : LogReader) (range : HeightRange) : RangeError :=
  ⟨range, .missing ((reader.lacking range).take listedHeights) (reader.lacking range).length⟩

/-- A committer before the fetcher is asked to make up for a log: nothing was asked for yet, and all
records that the log supplied are delivered for good. -/
structure HandsOver (reader : LogReader) (range : HeightRange) (before : Committer σ)
    (middle : Committer (Traced σ)) : Prop where
  requested : middle.requested = before.requested
  delivered : middle.sink.delivery.durable.map Prod.fst =
    (reader.supplied range).map repeatable
  pending : middle.sink.delivery.pending = []
  buffer : middle.buffer = []
  closed : middle.inTransaction = false

include log scans

theorem acquireOfScan {κ : Type} (consumer : Consumer κ) (state : κ) :
    repairer.acquire consumer planned state =
      repairer.scanLog consumer reader planned.range state := by
  rw [acquire, scans, log]

/-- A scan that leaves no height to the fetcher asks for nothing. -/
theorem scanAlone (none : (reader.outcome planned.range).close.2 = []) :
    repairer.verdict planned = (reader.outcome planned.range).close.1 ∧
      Deed.heights (Call.deeds (repairer.calls planned)) = [] := by
  obtain ⟨calls, same, _, quiet⟩ := reader.acquireOutcome planned.range
  have observed : repairer.acquire .observer planned [] =
      ((reader.outcome planned.range).close.1, Call.deeds calls) := by
    rw [acquireOfScan log scans, scanLog, same, Consumer.performObserver, List.nil_append]
    cases close : (reader.outcome planned.range).close with
    | mk acquired lacking =>
        rw [close] at none
        obtain rfl := none
        cases acquired <;> rfl
  obtain ⟨verdict, deeds, _⟩ := verdictOfObserved observed
  exact ⟨verdict, deeds ▸ quiet⟩

variable (short : (reader.outcome planned.range).ending = .stopped .endOfLog ∨
  (reader.outcome planned.range).ending = .stopped .boundExceeded)

include short

/-- After a scan that fell short, and after a checkpoint, the heights that the log lacked are
fetched. -/
theorem scanThenFetch {κ : Type} (consumer : Consumer κ) (state : κ) :
    ∃ calls, Call.records calls = reader.supplied planned.range ∧
      Deed.heights (Call.deeds calls) = [] ∧
      repairer.acquire consumer planned state =
        match consumer.follow calls state with
        | (.error cause, state) => (.ended cause, state)
        | (.ok (), state) =>
            match consumer.checkpoint state with
            | (.error cause, state) => (.ended cause, state)
            | (.ok (), state) => repairer.fetchParts consumer planned.range
                (shortfall reader planned.range) (collapse (reader.lacking planned.range))
                (planned.range.size - (reader.lacking planned.range).length) state := by
  obtain ⟨calls, same, records, quiet⟩ := reader.acquireOutcome planned.range
  obtain ⟨some, close⟩ := LogReader.closeOfShort short
  let told : Call := .note (.event (fallbackEvent planned.range
    (reader.lacking planned.range).length (shortfall reader planned.range)))
  refine ⟨calls ++ [told], by simp [records, told], ?_, ?_⟩
  · simp [quiet, told, Call.deed?, Activity.height?]
  rw [acquireOfScan log scans, Consumer.followAppend]
  cases followed : consumer.follow calls state with
  | mk result next =>
      have scanned := same consumer state
      rw [Consumer.perform, followed] at scanned
      cases result with
      | error cause => simp only [scanLog, scanned]
      | ok =>
          rw [close] at scanned
          exact scanLogOfShort scanned some

/-- The parts that a log lacked are asked for in order, and the range is acquired exactly if the
fetcher has a record of every height that the log lacked. -/
theorem scanThenAsks :
    repairer.fetcher.AsksInOrder (collapse (reader.lacking planned.range))
        (Deed.heights (Call.deeds (repairer.calls planned))) ∧
      ((∃ emitted, repairer.verdict planned = .emitted emitted) ↔
        ∀ height ∈ reader.lacking planned.range, (repairer.fetcher.recordAt? height).isSome) := by
  obtain ⟨before, _, quiet, same⟩ := scanThenFetch log scans short .observer []
  rw [Consumer.followObserver, List.nil_append] at same
  dsimp only [Consumer.checkpointObserver] at same
  obtain ⟨acquired, fetches, performs, served⟩ := repairer.fetchPartsPerforms planned.range
    (shortfall reader planned.range) (collapse (reader.lacking planned.range))
    (planned.range.size - (reader.lacking planned.range).length)
  obtain ⟨seen, deeds, told, order⟩ := repairer.fetchPartsAsks planned.range
    (shortfall reader planned.range) (collapse (reader.lacking planned.range))
    (planned.range.size - (reader.lacking planned.range).length)
    (Call.deeds before ++ [.settled])
  rw [told] at same
  obtain ⟨rfl, asked, _⟩ := verdictOfObserved same
  rw [performs, Consumer.performObserver] at told
  obtain ⟨rfl, _⟩ := Prod.mk.inj told
  rw [LogReader.collapseLacking] at served
  refine ⟨?_, Fetcher.emittedIff served⟩
  rw [asked, Deed.heightsAppend, Deed.heightsAppend, quiet]
  exact order

variable {before : Committer σ} (absent : repairer.isPresent planned before.sink = .ok false)
  (clean : (repairer.watched.repairRange planned before.watch).2.sink.Clean)

include absent clean

/-- What the log supplied is delivered for good before the fetcher is asked for the rest. -/
theorem scanHandsOver : ∃ middle, HandsOver reader planned.range before middle ∧
    repairer.watched.repairRange planned before.watch =
      repairer.watched.conclude planned (repairer.watched.fetchParts repairer.watched.consumer
        planned.range (shortfall reader planned.range) (collapse (reader.lacking planned.range))
        (planned.range.size - (reader.lacking planned.range).length) middle) := by
  have started : (startRange planned before.watch).requested = before.requested :=
    requestedLog before.watch _
  obtain ⟨calls, records, quiet, same⟩ := @scanThenFetch _ repairer.watched planned reader log scans
    short _ repairer.watched.consumer (startRange planned before.watch)
  have follows := (tracksCustody repairer.store.toSink).followLeaves repairer.cadence calls
    (holdsStart planned before)
  rw [fillWatchedOfAbsent absent, same, watchedConsumer] at clean
  rw [fillWatchedOfAbsent absent, same, watchedConsumer]
  cases followed : (Committer.consumer repairer.store.toSink.watched repairer.cadence).follow calls
      (startRange planned before.watch) with
  | mk result taken =>
      rw [followed] at follows clean
      cases result with
      | error cause =>
          obtain ⟨_, _, _, _, unclean⟩ := follows
          exact absurd clean unclean
      | ok =>
          have settles := (tracksCustody repairer.store.toSink).commitPendingLeaves repairer.cadence
            follows
          have asked := (requestedPending repairer.store.toSink.watched repairer.cadence taken).trans
            (requestedFollow _ _ followed)
          dsimp only [Committer.consumer] at clean ⊢
          cases settled : taken.commitPending repairer.store.toSink.watched repairer.cadence with
          | mk result middle =>
              rw [settled] at settles asked clean
              cases result with
              | error cause =>
                  obtain ⟨_, _, _, _, unclean⟩ := settles
                  exact absurd clean unclean
              | ok =>
                  obtain ⟨tracks, empty, closed⟩ := settles
                  refine ⟨middle, ⟨?_, ?_, ?_, empty, closed⟩, rfl⟩
                  · rw [asked, quiet, started, List.append_nil]
                  · rw [tracks.done, records, List.nil_append]
                  · exact List.map_eq_nil_iff.mp tracks.sent

end Scan

/-- How the fetcher makes up for a log that came to its end, or for a scan that came to its bound, before
all heights of a range were found. -/
structure FallsBack (repairer : Repairer σ) (reader : LogReader) (planned : PlannedRange)
    (before : Committer σ) : Prop where
  /-- The heights that the scan did not hand on are left over, and reported as missing. -/
  unresolved : reader.lacking planned.range ≠ [] ∧ (reader.outcome planned.range).close =
    (.failed (shortfall reader planned.range), reader.lacking planned.range)
  /-- The parts that are fetched are the runs of these heights. -/
  parts : Separated (collapse (reader.lacking planned.range)) ∧
    (collapse (reader.lacking planned.range)).flatMap HeightRange.heights =
      reader.lacking planned.range
  /-- What the scan handed on is delivered for good before the parts are fetched. -/
  handsOver : ∃ middle, HandsOver reader planned.range before middle ∧
    repairer.repairRange planned before = mapAnswer Traced.inner (repairer.watched.conclude planned
      (repairer.watched.fetchParts repairer.watched.consumer planned.range
        (shortfall reader planned.range) (collapse (reader.lacking planned.range))
        (planned.range.size - (reader.lacking planned.range).length) middle))
  /-- Only heights that are left over are asked for, each at most once, part by part up to the first
  part that fails. -/
  asks : ∃ asked,
    (repairer.repairRange planned before).2.requested = before.requested ++ asked ∧
      repairer.fetcher.AsksInOrder (collapse (reader.lacking planned.range)) asked ∧
      asked.Nodup ∧ ∀ height ∈ asked, height ∈ reader.lacking planned.range ∧
        height ∉ Record.heights (reader.supplied planned.range)
  /-- The range is repaired exactly if all heights that are left over could be fetched and the sink
  refused no record. -/
  repaired : (∃ emitted applied commits, (repairer.repairRange planned before).1 =
      .ok (.repaired emitted applied commits)) ↔
    (∀ height ∈ reader.lacking planned.range, (repairer.fetcher.recordAt? height).isSome) ∧
      ∀ entry ∈ repairer.delivered planned before, entry.2 = true

/-- After a scan the fetcher is asked for just the heights that the log lacked, and for none if the
scan found all of them or stopped for damage. -/
theorem scanFallsBack (repairer : Repairer σ) {reader : LogReader}
    (log : repairer.log = some reader) {planned : PlannedRange}
    (scans : planned.strategy = .logScan) {before : Committer σ}
    (absent : repairer.isPresent planned before.sink = .ok false)
    (clean : (repairer.watched.repairRange planned before.watch).2.sink.Clean) :
    let result := reader.outcome planned.range
    let answer := repairer.repairRange planned before
    (result.ending = .stopped .complete → answer.2.requested = before.requested) ∧
      (result.ending = .stopped .decodeLimit → answer.2.requested = before.requested ∧
        answer.1 = .ok (.failed
          ⟨planned.range, .corrupt result.progress.damaged result.lastPosition⟩)) ∧
      (result.ending = .stopped .endOfLog ∨ result.ending = .stopped .boundExceeded →
        FallsBack repairer reader planned before) := by
  intro result answer
  have asks : answer.2.requested = _ := requestedOfClean absent clean
  -- If no height is left to the fetcher then nothing is asked for.
  have alone (none : result.close.2 = []) : answer.2.requested = before.requested ∧
      repairer.verdict planned = result.close.1 := by
    obtain ⟨verdict, quiet⟩ := scanAlone log scans none
    rw [asks, quiet, List.append_nil]
    exact ⟨rfl, verdict⟩
  refine ⟨fun complete => ?_, fun damaged => ?_, fun short => ?_⟩
  · exact (alone (by rw [ScanResult.close, complete])).1
  · have close : result.close =
        (.failed ⟨planned.range, .corrupt result.progress.damaged result.lastPosition⟩, []) := by
      rw [ScanResult.close, damaged]
      dsimp only
      rw [(reader.outcomeFinds planned.range).1.place]
    obtain ⟨quiet, verdict⟩ := alone (congrArg Prod.snd close)
    rw [close] at verdict
    exact ⟨quiet, failedOfClean absent clean verdict⟩
  · obtain ⟨order, acquired⟩ := scanThenAsks log scans short
    obtain ⟨middle, hands, same⟩ := scanHandsOver log scans short absent clean
    obtain ⟨done, initial, perm⟩ := Fetcher.initialOfOrder order
    rw [reader.collapseLacking] at initial
    have distinct : (reader.lacking planned.range).Nodup :=
      (reader.lackingAscend planned.range).imp Nat.ne_of_lt
    constructor
    · exact LogReader.closeOfShort short
    · exact ⟨separatedCollapse _, reader.collapseLacking planned.range⟩
    · refine ⟨middle, hands, ?_⟩
      rw [← same]
      exact repairer.repairRangeWatched planned before.watch
    · refine ⟨_, asks, order, perm.nodup_iff.mpr (distinct.sublist initial.sublist), ?_⟩
      intro height asked
      have left := initial.subset (perm.mem_iff.mp asked)
      exact ⟨left, of_decide_eq_true (List.mem_filter.mp left).2⟩
    · rw [repairedIff absent clean, acquired]

/-- A log with a damaged entry and the block of height two. -/
def patchyLog : LogReader :=
  let damaged := (LogWriter.empty .offsets).appendRaw [] 0
  let writer := damaged.append (.blank 2)
  .ofFiles .standard (.file writer.index) (.file writer.data)

/-- A repairer that looks for blocks in this log first. -/
def patchy : Repairer Replica :=
  { blanks with log := some patchyLog }

/-- The log lacks the height one of the gap. -/
theorem patchyLacks : (patchyLog.outcome Tables.gap).ending = .stopped .endOfLog ∧
    patchyLog.lacking Tables.gap = [1] := by
  decide +kernel

/-- The height that the log lacks is asked for, and the gap is repaired. -/
theorem scanFallsBackForOne :
    let before : Committer Replica := .new (.ofTables .gapped)
    let answer := patchy.repairRange (gap .logScan) before
    FallsBack patchy patchyLog (gap .logScan) before ∧ patchyLog.lacking Tables.gap = [1] ∧
      answer.2.requested = [1] ∧
      ∃ emitted applied commits, answer.1 = .ok (.repaired emitted applied commits) := by
  intro before answer
  have absent : patchy.isPresent (gap .logScan) before.sink = .ok false := by
    decide +kernel
  have clean : (patchy.watched.repairRange (gap .logScan) before.watch).2.sink.Clean := by
    decide +kernel
  obtain ⟨ending, lacking⟩ := patchyLacks
  have short := (patchy.scanFallsBack rfl rfl absent clean).2.2 (.inl ending)
  refine ⟨short, lacking, by decide +kernel, short.repaired.mpr ⟨?_, by decide +kernel⟩⟩
  rw [show patchyLog.lacking (gap .logScan).range = [1] from lacking]
  decide +kernel

end Backfill.Repairer
