/-
This file shows how few records a committer holds back. Whatever it is called for and however its
sink answers, a call that goes well leaves less than a batch buffered and less than an interval
open.
-/

import Backfill.Proofs.Repair.Portions

namespace Backfill

namespace Gauge

/-- The records of the open transaction are counted, and they are fewer than the interval. -/
structure Bounded (cadence : Cadence) (gauge : Gauge) : Prop where
  counted : gauge.portions.pending ≤ gauge.sinceCommit
  small : gauge.portions.pending < cadence.interval

theorem settleBounded (cadence : Cadence) (gauge : Gauge) : gauge.settle.Bounded cadence :=
  ⟨Nat.zero_le _, cadence.intervalPositive⟩

theorem giveUpBounded (cadence : Cadence) (gauge : Gauge) : gauge.giveUp.Bounded cadence :=
  ⟨Nat.zero_le _, cadence.intervalPositive⟩

/-- A batch that takes the transaction to the interval ends it. -/
theorem flushBounded {cadence : Cadence} {gauge : Gauge} (bounded : gauge.Bounded cadence)
    (applied refused : Nat) : (gauge.flush cadence applied refused).Bounded cadence := by
  unfold flush
  dsimp only
  split
  · exact settleBounded cadence _
  · rename_i short
    have more : gauge.portions.pending + applied ≤ gauge.sinceCommit + applied :=
      Nat.add_le_add_right bounded.counted applied
    exact ⟨more, Nat.lt_of_le_of_lt more (Nat.lt_of_not_le short)⟩

theorem finishBounded {cadence : Cadence} {gauge : Gauge} (bounded : gauge.Bounded cadence) :
    gauge.finish.Bounded cadence := by
  unfold finish
  split
  · exact settleBounded cadence gauge
  · exact bounded

theorem failsBounded {cadence : Cadence} {before after : Gauge} (bounded : before.Bounded cadence)
    (fails : before.Fails after) : after.Bounded cadence := by
  rcases fails with rfl | ⟨earlier, rfl⟩
  · exact bounded
  · exact giveUpBounded cadence earlier

end Gauge

namespace Committer

variable {σ : Type} (sink : Sink σ) {cadence : Cadence} {committer : Committer (Traced σ)}

theorem flushBounded (bounded : committer.gauge.Bounded cadence) :
    Leaves (fun after => after.buffer = [] ∧ after.gauge.Bounded cadence)
      (fun _ after => after.gauge.Bounded cadence) (committer.flush sink.watched cadence) := by
  refine leavesMono (gaugeEmptied sink cadence committer) ?_ fun _ _ => Gauge.failsBounded bounded
  rintro after ⟨emptied, applied, refused, _, flushed⟩
  refine ⟨emptied, ?_⟩
  rw [flushed]
  split
  · exact bounded
  · exact Gauge.flushBounded bounded applied refused

theorem commitPendingBounded (bounded : committer.gauge.Bounded cadence) :
    Leaves (fun after => after.buffer = [] ∧ after.gauge.Bounded cadence)
      (fun _ after => after.gauge.Bounded cadence)
      (committer.commitPending sink.watched cadence) := by
  refine leavesMono (gaugePending sink cadence committer) ?_ fun _ _ => Gauge.failsBounded bounded
  rintro after ⟨emptied, applied, refused, _, ended⟩
  refine ⟨emptied, ?_⟩
  rw [ended]
  split
  · exact Gauge.finishBounded bounded
  · exact Gauge.finishBounded (Gauge.flushBounded bounded applied refused)

theorem makeRoomBounded (bounded : committer.gauge.Bounded cadence) (operation : Operation) :
    Leaves (fun after => after.gauge.Bounded cadence) (fun _ after => after.gauge.Bounded cadence)
      (committer.makeRoom sink.watched cadence operation) := by
  unfold makeRoom
  split
  · split
    · exact bounded
    · exact leavesMono (flushBounded sink bounded) (fun _ kept => kept.2) fun _ _ kept => kept
  · exact bounded

theorem pushBounded (bounded : committer.gauge.Bounded cadence) (record : Record) :
    Leaves (fun after => after.buffer.length < cadence.batchSize ∧ after.gauge.Bounded cadence)
      (fun _ after => after.gauge.Bounded cadence)
      (committer.push sink.watched cadence record) := by
  have makes := makeRoomBounded sink bounded (repeatable record).operation
  unfold push
  dsimp only
  cases answer : committer.makeRoom sink.watched cadence (repeatable record).operation with
  | mk result made =>
      rw [answer] at makes
      cases result with
      | error cause => exact makes
      | ok =>
          have more : { made with buffer := repeatable record :: made.buffer : Committer _ }.gauge
              |>.Bounded cadence := makes
          dsimp only
          split
          · refine leavesMono (flushBounded sink more) ?_ fun _ _ kept => kept
            rintro after ⟨emptied, kept⟩
            rw [emptied]
            exact ⟨cadence.batchPositive, kept⟩
          · rename_i short
            exact ⟨Nat.lt_of_not_le short, more⟩

theorem finishRangeBounded (bounded : committer.gauge.Bounded cadence) :
    Leaves (fun after => after.buffer = [] ∧ after.gauge.Bounded cadence)
      (fun _ after => after.gauge.Bounded cadence)
      (Prod.map (Except.map fun _ => ()) id (committer.finishRange sink.watched cadence)) := by
  have commits := commitPendingBounded sink bounded
  unfold finishRange
  cases answer : committer.commitPending sink.watched cadence with
  | mk result last =>
      rw [answer] at commits
      cases result with
      | error cause => exact commits
      | ok => exact ⟨commits.1, commits.2.counted, commits.2.small⟩

end Committer

/-- A call to a committer within a range. -/
inductive RangeCall
  | push (record : Record)
  | commitPending
  | finishRange

namespace RangeCall

variable {σ : Type}

/-- Makes a call. -/
def make (sink : Sink σ) (cadence : Cadence) (call : RangeCall) (committer : Committer σ) :
    Except RunError Unit × Committer σ :=
  match call with
  | .push record => committer.push sink cadence record
  | .commitPending => committer.commitPending sink cadence
  | .finishRange => Prod.map (Except.map fun _ => ()) id (committer.finishRange sink cadence)

/-- The committer after calls in order, however they are answered. -/
def makeAll (sink : Sink σ) (cadence : Cadence) (calls : List RangeCall)
    (committer : Committer σ) : Committer σ :=
  calls.foldl (fun committer call => (call.make sink cadence committer).2) committer

theorem makeMap {τ : Type} {first : Sink σ} {second : Sink τ} {image : σ → τ}
    (mirrors : first.Mirrors second image) (cadence : Cadence) (call : RangeCall)
    (committer : Committer σ) :
    call.make second cadence (committer.map image) =
      Committer.mapAnswer image (call.make first cadence committer) := by
  cases call with
  | push record => exact Committer.pushMap mirrors cadence record committer
  | commitPending => exact Committer.commitPendingMap mirrors cadence committer
  | finishRange =>
      simp only [make, Committer.finishRangeMap mirrors]
      rfl

theorem makeAllMap {τ : Type} {first : Sink σ} {second : Sink τ} {image : σ → τ}
    (mirrors : first.Mirrors second image) (cadence : Cadence) (calls : List RangeCall)
    (committer : Committer σ) :
    makeAll second cadence calls (committer.map image) =
      (makeAll first cadence calls committer).map image := by
  induction calls generalizing committer with
  | nil => rfl
  | cons call rest inductionHypothesis =>
      rw [makeAll, List.foldl_cons, makeMap mirrors cadence]
      exact inductionHypothesis _

variable (sink : Sink σ) {cadence : Cadence}

/-- A call keeps the bounds however it is answered, and if it goes well then little is held back. -/
theorem makeBounded {committer : Committer (Traced σ)}
    (bounded : committer.gauge.Bounded cadence) (call : RangeCall) :
    Committer.Leaves (fun after => after.buffer.length < cadence.batchSize ∧
        after.gauge.Bounded cadence)
      (fun _ after => after.gauge.Bounded cadence) (call.make sink.watched cadence committer) := by
  have emptied (after : Committer (Traced σ))
      (kept : after.buffer = [] ∧ after.gauge.Bounded cadence) :
      after.buffer.length < cadence.batchSize ∧ after.gauge.Bounded cadence := by
    rw [kept.1]
    exact ⟨cadence.batchPositive, kept.2⟩
  cases call with
  | push record => exact Committer.pushBounded sink bounded record
  | commitPending =>
      exact Committer.leavesMono (Committer.commitPendingBounded sink bounded) emptied
        fun _ _ kept => kept
  | finishRange =>
      exact Committer.leavesMono (Committer.finishRangeBounded sink bounded) emptied
        fun _ _ kept => kept

theorem makeAllBounded (calls : List RangeCall) {committer : Committer (Traced σ)}
    (bounded : committer.gauge.Bounded cadence) :
    (makeAll sink.watched cadence calls committer).gauge.Bounded cadence := by
  induction calls generalizing committer with
  | nil => exact bounded
  | cons call rest inductionHypothesis =>
      have made := makeBounded sink bounded call
      rw [makeAll, List.foldl_cons]
      cases answer : call.make sink.watched cadence committer with
      | mk result next =>
          rw [answer] at made
          cases result with
          | error cause => exact inductionHypothesis made
          | ok => exact inductionHypothesis made.2

end RangeCall

end Backfill
