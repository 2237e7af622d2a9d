/-
This file compares what a committer remembers of a range with the calls that were made to its sink.
Whatever the sink accepts, the heights that are remembered are those of the records it refused.
-/

import Backfill.Proofs.Repair.Delivery
import Backfill.Proofs.Repair.Range

namespace Backfill

namespace Delivery

/-- The records that were handed on and not accepted. -/
def refused (handed : List (Record × Bool)) : List Record :=
  (handed.filter fun entry => !entry.2).map Prod.fst

@[simp] theorem refusedAppend (first second : List (Record × Bool)) :
    refused (first ++ second) = refused first ++ refused second := by
  simp [refused]

/-- No record of a batch that is accepted is refused. -/
@[simp] theorem refusedAccepted (records : List Record) : refused (records.map (·, true)) = [] := by
  simp [refused]

/-- No record was refused if all were accepted. -/
theorem refusedEqNil (handed : List (Record × Bool)) :
    refused handed = [] ↔ ∀ entry ∈ handed, entry.2 = true := by
  simp [refused]

end Delivery

namespace Committer

variable {σ : Type} {sink : Sink σ} {done sent rest : List Record}
  {committer after : Committer (Traced σ)}

/-- A committer whose sink is watched counts the records that it has delivered and remembers the
heights of those that were refused. -/
structure Tracks (done sent rest : List Record) (committer : Committer (Traced σ)) : Prop where
  done : committer.sink.delivery.durable.map Prod.fst = done
  sent : committer.sink.delivery.pending.map Prod.fst = sent
  rest : committer.sink.delivery.rest = rest
  clean : committer.sink.Clean
  failed : committer.stats.failed.reverse = Record.heights (Delivery.refused
    (committer.sink.delivery.durable ++ committer.sink.delivery.pending))
  applied : committer.stats.applied + committer.stats.failed.length =
    committer.sink.delivery.durable.length + committer.sink.delivery.pending.length

/-- More records are delivered in the open transaction. -/
theorem tracksMore (tracks : Tracks done sent rest committer) {more : List (Record × Bool)}
    {left : List Record}
    (delivery : after.sink.delivery = ⟨committer.sink.delivery.durable,
      committer.sink.delivery.pending ++ more, left⟩)
    (clean : after.sink.Clean)
    (failed : after.stats.failed.reverse =
      committer.stats.failed.reverse ++ Record.heights (Delivery.refused more))
    (applied : after.stats.applied + after.stats.failed.length =
      committer.stats.applied + committer.stats.failed.length + more.length) :
    Tracks done (sent ++ more.map Prod.fst) left after := by
  constructor
  · rw [delivery]
    exact tracks.done
  · rw [delivery, List.map_append, tracks.sent]
  · rw [delivery]
  · exact clean
  · rw [failed, tracks.failed, delivery, ← List.append_assoc, Delivery.refusedAppend (_ ++ _),
      Record.heightsAppend]
  · rw [applied, tracks.applied, delivery, List.length_append, Nat.add_assoc]

/-- What a committer tracks depends on what its sink has delivered and on its statistics. -/
theorem tracksHeld (tracks : Tracks done sent rest committer) {left : List Record}
    (delivery : after.sink.delivery =
      ⟨committer.sink.delivery.durable, committer.sink.delivery.pending, left⟩)
    (clean : after.sink.Clean) (stats : after.stats = committer.stats) :
    Tracks done sent left after := by
  constructor
  · rw [delivery, tracks.done]
  · rw [delivery, tracks.sent]
  · rw [delivery]
  · exact clean
  · rw [stats, delivery, tracks.failed]
  · rw [stats, delivery, tracks.applied]

theorem tracksCongr {first second : Committer (Traced σ)} (tracks : Tracks done sent rest first)
    (sink : second.sink = first.sink) (stats : second.stats = first.stats) :
    Tracks done sent rest second :=
  tracksHeld tracks (by rw [sink, ← tracks.rest]) (by rw [sink]; exact tracks.clean) stats

/-- Records that are applied are delivered and not remembered. -/
theorem tracksApplied (tracks : Tracks done sent rest committer) {records left : List Record}
    {next : Traced σ}
    (delivery : next.delivery = ⟨committer.sink.delivery.durable,
      committer.sink.delivery.pending ++ records.map (·, true), left⟩)
    (clean : next.Clean) :
    Tracks done (sent ++ records) left
      (noteApplied sink.watched records.length { committer with sink := next }) := by
  have more : Tracks done (sent ++ (records.map (·, true)).map Prod.fst) left
      (committer.written next records.length) :=
    tracksMore tracks delivery clean (by simp [written])
      (by simp [written, Nat.add_right_comm])
  rw [Delivery.recordsAccepted] at more
  rw [noteApplied, logAllEq]
  exact tracksCongr more rfl rfl

/-- A single record is delivered whether it is accepted or not. -/
theorem tracksRecord {record : Record} (tracks : Tracks done sent (record :: rest) committer) :
    Tracks done (sent ++ [record]) rest (applyOne sink.watched committer record) := by
  unfold applyOne
  cases answer : sink.watched.apply committer.update [record] committer.sink with
  | mk result next =>
      obtain ⟨_, calls⟩ := Traced.recordEq answer
      have delivery := Traced.deliveryOfCall calls
      have clean := Traced.cleanOfCall tracks.clean calls (by simp)
      rw [Delivery.enterRecord tracks.rest] at delivery
      cases result with
      | ok => exact @tracksApplied _ sink _ _ _ _ tracks [record] _ _ delivery clean
      | error cause =>
          have more : Tracks done (sent ++ [(record, false)].map Prod.fst) rest
              (committer.rejected next record) :=
            tracksMore tracks delivery clean (by simp [rejected, Delivery.refused])
              (by simp [rejected, Nat.add_assoc])
          exact tracksCongr more rfl rfl

/-- Records that are handed on one by one are delivered. -/
theorem tracksEach (records : List Record) (tracks : Tracks done sent records committer) :
    Tracks done (sent ++ records) [] (records.foldl (applyOne sink.watched) committer) := by
  induction records generalizing sent committer with
  | nil => rwa [List.append_nil]
  | cons record rest inductionHypothesis =>
      rw [List.foldl_cons, List.append_cons]
      exact inductionHypothesis (tracksRecord tracks)

/-- Every batch is delivered, record by record if it is refused as a whole. -/
theorem tracksBatch (batch : List Record) (tracks : Tracks done sent [] committer) :
    Tracks done (sent ++ batch) [] (applyBatch sink.watched batch committer) := by
  unfold applyBatch
  cases answer : sink.watched.apply committer.update batch committer.sink with
  | mk result next =>
      obtain ⟨_, calls⟩ := Traced.recordEq answer
      have delivery := Traced.deliveryOfCall calls
      have clean := Traced.cleanOfCall tracks.clean calls (by simp)
      cases result with
      | ok =>
          rw [Except.toBool, Delivery.enterBatch tracks.rest] at delivery
          exact tracksApplied tracks delivery clean
      | error cause =>
          rw [Except.toBool, Delivery.enterRefusal tracks.rest] at delivery
          exact tracksEach batch (tracksHeld tracks delivery clean rfl)

/-- A transaction that begins delivers nothing. -/
theorem tracksBegun {next : Traced σ} (tracks : Tracks done sent [] committer)
    (answer : sink.watched.begin committer.sink = (.ok (), next)) :
    Tracks done sent [] (committer.opened next) := by
  obtain ⟨_, calls⟩ := Traced.recordEq answer
  have delivery : next.delivery = committer.sink.delivery := Traced.deliveryOfCall calls
  refine tracksHeld tracks ?_ (Traced.cleanOfCall tracks.clean calls (by simp [Except.toBool])) rfl
  rw [← tracks.rest]
  exact delivery

/-- A commit makes durable what was delivered. -/
theorem tracksCommitted {next : Traced σ} (tracks : Tracks done sent [] committer)
    (answer : sink.watched.commit committer.sink = (.ok (), next)) :
    Tracks (done ++ sent) [] [] (committer.settled next) := by
  obtain ⟨_, calls⟩ := Traced.recordEq answer
  have delivery : next.delivery = ⟨committer.sink.delivery.durable ++
      committer.sink.delivery.pending, [], committer.sink.delivery.rest⟩ :=
    Traced.deliveryOfCall calls
  unfold settled
  constructor
  · rw [delivery, List.map_append, tracks.done, tracks.sent]
  · rw [delivery, List.map_nil]
  · rw [delivery, tracks.rest]
  · exact Traced.cleanOfCall tracks.clean calls (by simp [Except.toBool])
  · rw [delivery, List.append_nil]
    exact tracks.failed
  · rw [delivery, List.length_append]
    exact tracks.applied

/-- Every batch is tracked, and a call that ends the run spoils the trace. -/
theorem tracksCustody (sink : Sink σ) :
    Custody sink.watched (fun done sent => Tracks done sent [])
      (fun _ _ committer => ¬committer.sink.Clean) where
  alike := fun tracks alike => tracksCongr tracks alike.sink alike.stats
  alikeBad := fun unclean alike => by rwa [alike.sink]
  begun := fun tracks _ answer => tracksBegun tracks answer
  beginFailed := fun _ _ answer => Sink.uncleanOfBegin answer
  handed := fun batch tracks _ => tracksBatch batch tracks
  committed := fun tracks _ answer => tracksCommitted tracks answer
  commitFailed := fun _ _ answer => Sink.uncleanOfCommit answer

end Committer

namespace Repairer

open Committer

variable {σ : Type} (repairer : Repairer σ)

/-- The repairer whose store is watched. -/
def watched : Repairer (Traced σ) :=
  repairer.traced .none

@[simp] theorem watchedSink : repairer.watched.store.toSink = repairer.store.toSink.watched := rfl

@[simp] theorem watchedCadence : repairer.watched.cadence = repairer.cadence := rfl

theorem watchedConsumer : repairer.watched.consumer =
    Committer.consumer repairer.store.toSink.watched repairer.cadence := rfl

/-- The repairer whose store is watched makes the same calls. -/
theorem watchedAcquire {κ : Type} (consumer : Consumer κ) (planned : PlannedRange) (state : κ) :
    repairer.watched.acquire consumer planned state =
      consumer.perform .ended (repairer.verdict planned) (repairer.calls planned) state := by
  rw [watched, acquireTraced, acquireEq]

/-- At the start of a range nothing is delivered, whatever was done before it. -/
theorem tracksStart (planned : PlannedRange) (before : Committer σ) :
    Tracks [] [] [] (startRange planned before.watch) :=
  ⟨rfl, rfl, rfl, Traced.newClean _, rfl, rfl⟩

theorem holdsStart (planned : PlannedRange) (before : Committer σ) :
    Holding False (fun done sent => Tracks done sent []) [] (startRange planned before.watch) :=
  ⟨[], [], rfl, tracksStart planned before, fun _ => rfl, False.elim⟩

theorem concludeWatched (planned : PlannedRange) (acquired : Acquired)
    (committer : Committer (Traced σ)) :
    repairer.conclude planned (acquired, committer.map Traced.inner) =
      mapAnswer Traced.inner (repairer.watched.conclude planned (acquired, committer)) := by
  have finish := finishRangeMap repairer.store.toSink.watchedMirrors repairer.cadence committer
  cases acquired with
  | ended cause => rfl
  | failed error =>
      simp only [conclude, finishFailed, finish, watchedSink, watchedCadence]
      cases committer.finishRange repairer.store.toSink.watched repairer.cadence with
      | mk result after => cases result <;> rfl
  | emitted count =>
      simp only [conclude, finishEmitted, finish, watchedSink, watchedCadence]
      cases committer.finishRange repairer.store.toSink.watched repairer.cadence with
      | mk result after =>
          cases result with
          | error cause => rfl
          | ok stats =>
              simp only [mapAnswer]
              split <;> rfl

/-- Acquiring a range makes the same calls to the watched committer. -/
theorem acquireWatched (planned : PlannedRange) (committer : Committer (Traced σ)) :
    repairer.acquire repairer.consumer planned (committer.map Traced.inner) =
      (repairer.acquire repairer.watched.consumer planned committer).map id
        (Committer.map Traced.inner) := by
  have follows := followMap repairer.store.toSink.watchedMirrors repairer.cadence
    (repairer.calls planned) committer
  rw [repairer.acquireEq, repairer.acquireEq, Consumer.perform, Consumer.perform]
  unfold Repairer.consumer
  rw [follows, watchedSink, watchedCadence]
  cases (Committer.consumer repairer.store.toSink.watched repairer.cadence).follow
      (repairer.calls planned) committer with
  | mk result after => cases result <;> rfl

/-- A range is filled alike when the store is watched. -/
theorem fillWatched (planned : PlannedRange) (before : Committer (Traced σ)) :
    repairer.fill planned (before.map Traced.inner) =
      mapAnswer Traced.inner (repairer.watched.fill planned before) := by
  have acquired := repairer.acquireWatched planned (startRange planned before)
  rw [fillEq, fillEq, watched, repairer.acquireTraced]
  show repairer.conclude planned (repairer.acquire repairer.consumer planned
    ((startRange planned before).map Traced.inner)) = _
  rw [acquired]
  exact repairer.concludeWatched planned _ _

/-- Watching the store does not change whether a range is left out. -/
theorem isPresentWatched (planned : PlannedRange) (state : Traced σ) :
    repairer.watched.isPresent planned state = repairer.isPresent planned state.inner := by
  unfold isPresent
  cases planned.origin <;> rfl

/-- A planned range is repaired alike when the store is watched. -/
theorem repairRangeWatched (planned : PlannedRange) (before : Committer (Traced σ)) :
    repairer.repairRange planned (before.map Traced.inner) =
      mapAnswer Traced.inner (repairer.watched.repairRange planned before) := by
  have inner : (before.map Traced.inner).sink = before.sink.inner := rfl
  rw [repairRange, repairRange, isPresentWatched, inner]
  cases repairer.isPresent planned before.sink.inner with
  | error cause => rfl
  | ok there =>
      cases there with
      | true => rfl
      | false => exact repairer.fillWatched planned before

end Repairer

end Backfill
