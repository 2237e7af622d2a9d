/-
This file shows what repairing one planned range leaves of a condition that the calls to the sink
keep.
-/

import Backfill.Proofs.Repair.Sources
import Backfill.Proofs.Repair.Upkeep
import Backfill.Replica.Trace

namespace Backfill

/-- A failure names the same heights in whatever order they are given. -/
theorem RangeError.ofHeightsCongr (range : HeightRange) {first second : List Nat}
    (same : ∀ height, height ∈ first ↔ height ∈ second) :
    ofHeights range first = ofHeights range second := by
  rw [ofHeights, ofHeights, sortedHeightsCongr same]

namespace Repairer

open Committer

variable {σ : Type} (repairer : Repairer σ)

/-- The repairer over its store with the calls traced and some of them refused. -/
def traced (outages : Outages) : Repairer (Traced σ) where
  settings := repairer.settings
  fetcher := repairer.fetcher
  log := repairer.log
  store := repairer.store.traced outages
  schedule := repairer.schedule

/-- The records that a planned range hands on, as the committer writes them. -/
def toWrite (planned : PlannedRange) : List Record :=
  (repairer.handedOn planned).map repeatable

/-- The committer at the start of a planned range. -/
def startRange (planned : PlannedRange) (committer : Committer σ) : Committer σ :=
  (committer.log (startEvent planned)).beginRange planned.range planned.origin.replaces

/-- Ends a range that was acquired, or of which the acquisition failed. -/
def conclude (planned : PlannedRange) :
    Acquired × Committer σ → Except RunError RangeOutcome × Committer σ
  | (.emitted emitted, committer) => repairer.finishEmitted planned.range emitted committer
  | (.failed error, committer) => repairer.finishFailed planned.range error committer
  | (.ended cause, committer) => (.error cause, committer)

/-- A range is filled by acquiring and ending it. -/
theorem fillEq (planned : PlannedRange) (before : Committer σ) :
    repairer.fill planned before = repairer.conclude planned
      (repairer.acquire repairer.consumer planned (startRange planned before)) := rfl

/-- What a range that ended leaves, where `last` is the committer before it forgets the range. -/
structure Ends (planned : PlannedRange) (before last : Committer σ) (outcome : RangeOutcome)
    (after : Committer σ) : Prop where
  followed : (repairer.consumer.follow (repairer.calls planned)
    (startRange planned before)).1 = .ok ()
  sink : after.sink = last.sink
  buffer : after.buffer = []
  closed : last.inTransaction = false
  inTransaction : after.inTransaction = false
  repaired : ∀ emitted applied commits, outcome = .repaired emitted applied commits →
    repairer.verdict planned = .emitted emitted ∧ last.stats = ⟨applied, commits, []⟩
  failed : ∀ error, outcome = .failed error →
    repairer.verdict planned = .failed error ∨
      (∃ emitted, repairer.verdict planned = .emitted emitted) ∧ last.stats.failed ≠ [] ∧
        error = .ofHeights planned.range last.stats.failed
  present : ∀ height, outcome ≠ .skipped height

theorem attemptedOfEnds {repairer : Repairer σ} {planned : PlannedRange}
    {before last after : Committer σ} {outcome : RangeOutcome}
    (ends : repairer.Ends planned before last outcome after) : outcome.isSkipped = false := by
  cases outcome with
  | skipped height => exact absurd rfl (ends.present height)
  | repaired emitted applied commits => rfl
  | failed error => rfl

/-- What the work on a range leaves: a range that ended has all its records written for good, and
one that ended the run has lost some of them, unless its source ended the run. -/
def Settles (idle : Prop) (Good : List Record → List Record → Committer σ → Prop)
    (Bad : List Record → RunError → Committer σ → Prop) (planned : PlannedRange)
    (before : Committer σ) (answer : Except RunError RangeOutcome × Committer σ) : Prop :=
  match answer with
  | (.ok outcome, after) =>
      ∃ last, Good (repairer.toWrite planned) [] last ∧
        repairer.Ends planned before last outcome after
  | (.error cause, after) =>
      Losing idle Bad (repairer.toWrite planned) cause after ∨
        repairer.verdict planned = .ended cause

theorem fetchPartsTraced {κ : Type} (outages : Outages) (consumer : Consumer κ)
    (range : HeightRange) (logError : RangeError) (parts : List HeightRange) (emitted : Nat)
    (state : κ) :
    (repairer.traced outages).fetchParts consumer range logError parts emitted state =
      repairer.fetchParts consumer range logError parts emitted state := by
  induction parts generalizing emitted state with
  | nil => rfl
  | cons part rest inductionHypothesis =>
      simp only [fetchParts, inductionHypothesis]
      rfl

/-- Tracing the calls to the store does not change what is handed on. -/
theorem acquireTraced {κ : Type} (outages : Outages) (consumer : Consumer κ)
    (planned : PlannedRange) (state : κ) :
    (repairer.traced outages).acquire consumer planned state =
      repairer.acquire consumer planned state := by
  simp only [acquire, scanLog, fetchPartsTraced]
  rfl

theorem toWriteTraced (outages : Outages) (planned : PlannedRange) :
    (repairer.traced outages).toWrite planned = repairer.toWrite planned := by
  simp only [toWrite, handedOn, calls, acquireTraced]

variable {Good : List Record → List Record → Committer σ → Prop}
  {Bad : List Record → RunError → Committer σ → Prop}

section Finish

variable {repairer : Repairer σ} {idle : Prop} {planned : PlannedRange} {before taken : Committer σ}
  (custody : Custody repairer.store.toSink Good Bad)
  (followed : (repairer.consumer.follow (repairer.calls planned)
    (startRange planned before)).1 = .ok ())
  (holding : Holding idle Good (repairer.toWrite planned) taken)

include custody followed holding

/-- A range of which all records were handed on is repaired, or it fails where some were refused. -/
theorem finishEmittedSettles {emitted : Nat}
    (verdict : repairer.verdict planned = .emitted emitted) :
    repairer.Settles idle Good Bad planned before
      (repairer.finishEmitted planned.range emitted taken) := by
  have finish := custody.finishRangeLeaves repairer.cadence holding
  unfold finishEmitted
  cases answer : taken.finishRange repairer.store.toSink repairer.cadence with
  | mk result after =>
      rw [answer] at finish
      cases result with
      | error cause => exact .inl finish
      | ok stats =>
          obtain ⟨last, good, rfl, sink, empty, quietly, closed⟩ := finish
          dsimp only
          split
          · rename_i clean
            rw [List.isEmpty_iff, sortedHeightsEqNil] at clean
            refine ⟨last, good, followed, sink, empty, quietly, closed, ?_, by simp, by simp⟩
            rintro _ _ _ ⟨⟩
            exact ⟨verdict, by rw [← clean]⟩
          · rename_i refusals
            rw [List.isEmpty_iff, sortedHeightsEqNil] at refusals
            refine ⟨last, good, followed, sink, empty, quietly, closed, by simp, ?_, by simp⟩
            rintro _ ⟨⟩
            refine .inr ⟨⟨emitted, verdict⟩, refusals, ?_⟩
            exact RangeError.ofHeightsCongr _ (memSortedHeights last.stats.failed)

/-- A range of which the acquisition failed fails with the same error. -/
theorem finishFailedSettles {error : RangeError}
    (verdict : repairer.verdict planned = .failed error) :
    repairer.Settles idle Good Bad planned before
      (repairer.finishFailed planned.range error taken) := by
  have finish := custody.finishRangeLeaves repairer.cadence holding
  unfold finishFailed
  cases answer : taken.finishRange repairer.store.toSink repairer.cadence with
  | mk result after =>
      rw [answer] at finish
      cases result with
      | error cause => exact .inl finish
      | ok stats =>
          obtain ⟨last, good, _, sink, empty, quietly, closed⟩ := finish
          refine ⟨last, good, followed, sink, empty, quietly, closed, by simp, ?_, by simp⟩
          rintro _ ⟨⟩
          exact .inl verdict

end Finish

/-- The work on a planned range settles every condition that batches keep. -/
theorem fillOfCustody (idle : Prop) (custody : Custody repairer.store.toSink Good Bad)
    (planned : PlannedRange) (before : Committer σ) (start : Good [] [] (startRange planned before))
    (quiet : idle → before.inTransaction = false) :
    repairer.Settles idle Good Bad planned before (repairer.fill planned before) := by
  have holding : Holding idle Good [] (startRange planned before) :=
    ⟨[], [], rfl, start, fun _ => rfl, fun still busy => by
      have closed : (startRange planned before).inTransaction = false := quiet still
      simp [closed] at busy⟩
  have follows := custody.followLeaves repairer.cadence (repairer.calls planned) holding
  rw [List.nil_append] at follows
  rw [repairer.fillEq, repairer.acquireEq, Consumer.perform]
  cases answer : repairer.consumer.follow (repairer.calls planned)
      (startRange planned before) with
  | mk result taken =>
      have followed := congrArg Prod.fst answer
      rw [consumer] at answer
      rw [answer] at follows
      cases result with
      | error cause => exact .inl follows
      | ok =>
          cases verdict : repairer.verdict planned with
          | ended cause => exact .inr verdict
          | emitted emitted => exact finishEmittedSettles custody followed follows verdict
          | failed error => exact finishFailedSettles custody followed follows verdict

/-- A range that is not left out is filled. -/
theorem fillOfAbsent {repairer : Repairer σ} {planned : PlannedRange} {before : Committer σ}
    (absent : repairer.isPresent planned before.sink = .ok false) :
    repairer.repairRange planned before = repairer.fill planned before := by
  unfold repairRange
  rw [absent]

/-- A range that did not end the run and was not skipped was filled. -/
theorem fillOfEnded {repairer : Repairer σ} {planned : PlannedRange} {before after : Committer σ}
    {outcome : RangeOutcome} (filled : outcome.isSkipped = false)
    (ended : repairer.repairRange planned before = (.ok outcome, after)) :
    repairer.fill planned before = (.ok outcome, after) := by
  unfold repairRange at ended
  split at ended
  · cases ended
  · obtain ⟨skipped, _⟩ := Prod.mk.inj ended
    obtain rfl := Except.ok.inj skipped
    cases filled
  · exact ended

/-- The work on a planned range settles every condition that the calls to the sink keep. -/
theorem fillSettles (idle : Prop) (upkeep : Upkeep repairer.store.toSink Good Bad)
    (planned : PlannedRange) (before : Committer σ) (start : Good [] [] (startRange planned before))
    (quiet : idle → before.inTransaction = false) :
    repairer.Settles idle Good Bad planned before (repairer.fill planned before) :=
  repairer.fillOfCustody idle upkeep.custody planned before start quiet

end Repairer

end Backfill
