/-
This file shows that a committer asks for nothing by itself: the heights that were asked for are
those for which the calls that it follows ask.
-/

import Backfill.Proofs.Acquisition.Deeds
import Backfill.Proofs.Repair.Upkeep

namespace Backfill.Committer

variable {σ : Type} (sink : Sink σ) (cadence : Cadence) (committer : Committer σ)

/-- Events are not requests. -/
@[simp] theorem requestedLog (event : Event) :
    (committer.log event).requested = committer.requested := by
  simp [requested, log, note, Activity.height?]

@[simp] theorem requestedApplied (count : Nat) :
    (noteApplied sink count committer).requested = committer.requested := by
  have events (list : List Event) : (list.map Activity.event).filterMap Activity.height? = [] := by
    simp [List.filterMap_map, Function.comp_def, Activity.height?]
  simp [noteApplied, logAllEq, requested, events]

theorem requestedApplyOne (record : Record) :
    (applyOne sink committer record).requested = committer.requested := by
  unfold applyOne
  split
  · rw [requestedApplied]
    rfl
  · rw [requestedLog]
    rfl

theorem requestedApplyBatch (batch : List Record) :
    (applyBatch sink batch committer).requested = committer.requested := by
  have each (records : List Record) (committer : Committer σ) :
      (records.foldl (applyOne sink) committer).requested = committer.requested := by
    induction records generalizing committer with
    | nil => rfl
    | cons record rest inductionHypothesis =>
        rw [List.foldl_cons, inductionHypothesis, requestedApplyOne]
  unfold applyBatch
  split
  · rw [requestedApplied]
    rfl
  · rw [each, requestedLog]
    rfl

theorem requestedCommit : (committer.commit sink).2.requested = committer.requested := by
  unfold commit
  split
  · exact requestedLog _ _
  · dsimp only
    split
    · rfl
    · exact requestedLog _ _

theorem requestedOpen : (committer.openTransaction sink).2.requested = committer.requested := by
  unfold openTransaction
  split
  · rfl
  · split <;> rfl

theorem requestedFlush : (committer.flush sink cadence).2.requested = committer.requested := by
  unfold flush
  split
  · rfl
  · have opened := requestedOpen sink committer
    split
    · rename_i answer
      rwa [answer] at opened
    · rename_i begun answer
      rw [answer] at opened
      have written : (applyBatch sink begun.buffer.reverse { begun with buffer := [] }).requested =
          committer.requested := (requestedApplyBatch _ _ _).trans opened
      dsimp only
      split
      · rw [requestedCommit, written]
      · exact written

theorem requestedPending :
    (committer.commitPending sink cadence).2.requested = committer.requested := by
  have flushed := requestedFlush sink cadence committer
  unfold commitPending
  split
  · rename_i answer
    rwa [answer] at flushed
  · rename_i answer
    rw [answer] at flushed
    split
    · rw [requestedCommit, flushed]
    · exact flushed

theorem requestedPush (record : Record) :
    (committer.push sink cadence record).2.requested = committer.requested := by
  have room : (committer.makeRoom sink cadence (repeatable record).operation).2.requested =
      committer.requested := by
    unfold makeRoom
    split
    · split
      · rfl
      · exact requestedFlush sink cadence committer
    · rfl
  unfold push
  dsimp only
  split
  · rename_i answer
    rwa [answer] at room
  · rename_i made answer
    rw [answer] at room
    split
    · exact (requestedFlush sink cadence _).trans room
    · exact room

/-- A committer that follows calls has asked for what they ask for. -/
theorem requestedFollow {calls : List Call} {before after : Committer σ}
    (followed : (consumer sink cadence).follow calls before = (.ok (), after)) :
    after.requested = before.requested ++ Deed.heights (Call.deeds calls) := by
  induction calls generalizing before with
  | nil =>
      obtain ⟨_, rfl⟩ := Prod.mk.inj followed
      simp
  | cons call rest inductionHypothesis =>
      have made : ((consumer sink cadence).make call before).2.requested =
          before.requested ++ Deed.heights call.deed?.toList := by
        cases call with
        | consume record =>
            simpa [Consumer.make, consumer, Call.deed?, Deed.height?] using
              requestedPush sink cadence before record
        | checkpoint =>
            simpa [Consumer.make, consumer, Call.deed?, Deed.height?] using
              requestedPending sink cadence before
        | note activity =>
            cases activity <;>
              simp [Consumer.make, consumer, note, requested, Call.deed?, Activity.height?,
                Deed.height?]
      rw [Consumer.follow] at followed
      cases answer : (consumer sink cadence).make call before with
      | mk result next =>
          rw [answer] at followed made
          cases result with
          | error cause => cases followed
          | ok =>
              rw [inductionHypothesis followed, made, Call.deedsCons, Deed.heightsAppend,
                List.append_assoc]

/-- Ending a range asks for nothing. -/
theorem requestedFinish :
    (committer.finishRange sink cadence).2.requested = committer.requested := by
  have pending := requestedPending sink cadence committer
  unfold finishRange
  split
  · rename_i answer
    rwa [answer] at pending
  · rename_i answer
    rw [answer] at pending
    exact pending

end Backfill.Committer
