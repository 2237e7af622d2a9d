/-
This file counts the records that a committer hands on, from the calls that are made to its sink:
those of each transaction that was committed, and those of the open one.
-/

import Backfill.Proofs.Repair.Tracked

namespace Backfill

/-- The numbers of records that were applied: in each transaction that was committed, the last one
first, and in the one that is open. -/
structure Portions where
  committed : List Nat
  pending : Nat
deriving DecidableEq

namespace Portions

/-- Nothing is applied before the first call. -/
def blank : Portions :=
  ⟨[], 0⟩

/-- The numbers after a call that was answered, where a rollback gives up the open transaction in
any case. -/
def enter (call : SinkCall × Bool) (portions : Portions) : Portions :=
  match call with
  | (.apply _ records, true) => { portions with pending := portions.pending + records.length }
  | (.commit, true) => ⟨portions.pending :: portions.committed, 0⟩
  | (.rollback, _) => { portions with pending := 0 }
  | _ => portions

/-- The numbers after calls, of which the last one comes first. -/
def ofCalls (calls : List (SinkCall × Bool)) : Portions :=
  calls.foldr enter blank

end Portions

namespace Traced

variable {σ : Type}

/-- The numbers of records that the calls so far have applied. -/
def portions (traced : Traced σ) : Portions :=
  .ofCalls traced.calls

theorem portionsOfCall {before next : Traced σ} {call : SinkCall × Bool}
    (calls : next.calls = call :: before.calls) :
    next.portions = before.portions.enter call := by
  rw [portions, calls]
  rfl

end Traced

/-- What a committer and its trace count: the records of transactions, those since the last commit,
the commits, the refused records, and whether a transaction is open. -/
structure Gauge where
  portions : Portions
  sinceCommit : Nat
  commits : Nat
  failed : Nat
  busy : Bool
deriving DecidableEq

namespace Gauge

/-- A transaction is opened. -/
def start (gauge : Gauge) : Gauge :=
  { gauge with busy := true }

/-- Records are handed on, and some of them are refused. -/
def handOn (applied refused : Nat) (gauge : Gauge) : Gauge :=
  { gauge with
    portions := { gauge.portions with pending := gauge.portions.pending + applied }
    sinceCommit := gauge.sinceCommit + applied
    failed := gauge.failed + refused }

/-- The open transaction is committed. -/
def settle (gauge : Gauge) : Gauge :=
  { gauge with
    portions := ⟨gauge.portions.pending :: gauge.portions.committed, 0⟩
    sinceCommit := 0
    commits := gauge.commits + 1
    busy := false }

/-- The open transaction is given up. -/
def giveUp (gauge : Gauge) : Gauge :=
  { gauge with portions := { gauge.portions with pending := 0 }, busy := false }

/-- A batch is handed on, and the transaction is committed if the interval is reached. -/
def flush (cadence : Cadence) (applied refused : Nat) (gauge : Gauge) : Gauge :=
  let after := gauge.start.handOn applied refused
  if cadence.interval ≤ after.sinceCommit then after.settle else after

theorem handOnTwice (first second refusedFirst refusedSecond : Nat) (gauge : Gauge) :
    (gauge.handOn first refusedFirst).handOn second refusedSecond =
      gauge.handOn (first + second) (refusedFirst + refusedSecond) := by
  simp [handOn, Nat.add_assoc]

/-- The open transaction is committed, if there is one. -/
def finish (gauge : Gauge) : Gauge :=
  if gauge.busy then gauge.settle else gauge

/-- What a failure leaves: nothing was done, or a transaction was given up. -/
def Fails (before after : Gauge) : Prop :=
  after = before ∨ ∃ earlier : Gauge, after = earlier.giveUp

theorem flushFailed (cadence : Cadence) (applied refused : Nat) (gauge : Gauge) :
    (gauge.flush cadence applied refused).failed = gauge.failed + refused := by
  unfold flush
  dsimp only
  split <;> rfl

theorem finishFailed (gauge : Gauge) : gauge.finish.failed = gauge.failed := by
  unfold finish
  split <;> rfl

end Gauge

namespace Committer

variable {σ : Type}

/-- The counts of a committer whose sink is watched. -/
def gauge (committer : Committer (Traced σ)) : Gauge :=
  ⟨committer.sink.portions, committer.sinceCommit, committer.stats.commits,
    committer.stats.failed.length, committer.inTransaction⟩

variable (sink : Sink σ) (cadence : Cadence) (committer : Committer (Traced σ))

/-- A batch that is accepted is counted as a whole. -/
theorem gaugeApplied {batch : List Record} {next : Traced σ}
    (answer : sink.watched.apply committer.update batch committer.sink = (.ok (), next)) :
    (noteApplied sink.watched batch.length { committer with sink := next }).gauge =
      committer.gauge.handOn batch.length 0 := by
  obtain ⟨_, calls⟩ := Traced.recordEq answer
  have portions := Traced.portionsOfCall calls
  rw [noteApplied, logAllEq]
  show Gauge.mk next.portions _ _ _ _ = _
  rw [portions]
  rfl

/-- A batch that is refused is not counted. -/
theorem portionsOfRefusal {batch : List Record} {cause : ReplicaError} {next : Traced σ}
    (answer : sink.watched.apply committer.update batch committer.sink = (.error cause, next)) :
    next.portions = committer.sink.portions :=
  Traced.portionsOfCall (Traced.recordEq answer).2

/-- A single record is applied or refused. -/
theorem gaugeOne (record : Record) :
    ∃ applied refused, applied + refused = 1 ∧
      (applyOne sink.watched committer record).gauge = committer.gauge.handOn applied refused := by
  unfold applyOne
  cases answer : sink.watched.apply committer.update [record] committer.sink with
  | mk result next =>
      cases result with
      | ok => exact ⟨1, 0, rfl, gaugeApplied sink committer answer⟩
      | error cause =>
          refine ⟨0, 1, rfl, ?_⟩
          show Gauge.mk next.portions _ _ _ _ = _
          rw [portionsOfRefusal sink committer answer]
          rfl

/-- Each record of a batch is applied or refused, whether at once or one by one. -/
theorem gaugeBatch (batch : List Record) :
    ∃ applied refused, applied + refused = batch.length ∧
      (applyBatch sink.watched batch committer).gauge =
        committer.gauge.handOn applied refused := by
  have each (records : List Record) (committer : Committer (Traced σ)) :
      ∃ applied refused, applied + refused = records.length ∧
        (records.foldl (applyOne sink.watched) committer).gauge =
          committer.gauge.handOn applied refused := by
    induction records generalizing committer with
    | nil => exact ⟨0, 0, rfl, rfl⟩
    | cons record rest inductionHypothesis =>
        obtain ⟨applied, refused, one, first⟩ := gaugeOne sink committer record
        obtain ⟨more, others, all, later⟩ :=
          inductionHypothesis (applyOne sink.watched committer record)
        refine ⟨applied + more, refused + others, by rw [List.length_cons]; omega, ?_⟩
        rw [List.foldl_cons, later, first, Gauge.handOnTwice]
  unfold applyBatch
  cases answer : sink.watched.apply committer.update batch committer.sink with
  | mk result next =>
      cases result with
      | ok => exact ⟨batch.length, 0, rfl, gaugeApplied sink committer answer⟩
      | error cause =>
          obtain ⟨applied, refused, all, counted⟩ :=
            each batch (log (batchEvent batch cause) { committer with sink := next })
          refine ⟨applied, refused, all, counted.trans ?_⟩
          show (Gauge.mk next.portions _ _ _ _).handOn applied refused = _
          rw [portionsOfRefusal sink committer answer]
          rfl

/-- A commit settles the open transaction, or it is given up. -/
theorem gaugeCommit :
    Leaves (fun after => after.gauge = committer.gauge.settle ∧ after.buffer = committer.buffer)
      (fun _ after => after.gauge = committer.gauge.giveUp) (committer.commit sink.watched) := by
  unfold commit
  cases answer : sink.watched.commit committer.sink with
  | mk result next =>
      have committed := Traced.portionsOfCall (Traced.recordEq answer).2
      cases result with
      | ok =>
          refine ⟨?_, rfl⟩
          show Gauge.mk next.portions _ _ _ _ = _
          rw [committed]
          rfl
      | error cause =>
          dsimp only
          cases undone : sink.watched.rollback next with
          | mk result last =>
              have portions := Traced.portionsOfCall (Traced.recordEq undone).2
              rw [committed] at portions
              cases result with
              | ok =>
                  show Gauge.mk last.portions _ _ _ _ = _
                  rw [portions]
                  rfl
              | error second =>
                  show Gauge.mk last.portions _ _ _ _ = _
                  rw [portions]
                  rfl

/-- A transaction that is opened is counted as open. -/
theorem gaugeOpen :
    Leaves (fun after => after.gauge = committer.gauge.start ∧ after.buffer = committer.buffer)
      (fun _ after => after.gauge = committer.gauge) (committer.openTransaction sink.watched) := by
  unfold openTransaction
  by_cases busy : committer.inTransaction = true
  · rw [if_pos busy]
    refine ⟨?_, rfl⟩
    rw [Gauge.start, gauge, busy]
  · rw [if_neg busy]
    cases answer : sink.watched.begin committer.sink with
    | mk result next =>
        have portions : next.portions = committer.sink.portions :=
          Traced.portionsOfCall (Traced.recordEq answer).2
        cases result with
        | ok =>
            refine ⟨?_, rfl⟩
            show Gauge.mk next.portions _ _ _ _ = _
            rw [portions]
            rfl
        | error cause =>
            show Gauge.mk next.portions _ _ _ _ = _
            rw [portions]
            rfl

/-- A flush hands on what is buffered. -/
theorem gaugeFlush (some : committer.buffer ≠ []) :
    Leaves
      (fun after => after.buffer = [] ∧
        ∃ applied refused, applied + refused = committer.buffer.length ∧
          after.gauge = committer.gauge.flush cadence applied refused)
      (fun _ after => committer.gauge.Fails after.gauge)
      (committer.flush sink.watched cadence) := by
  unfold flush
  simp only [List.isEmpty_iff, some, if_false]
  have opens := gaugeOpen sink committer
  cases openAnswer : committer.openTransaction sink.watched with
  | mk result begun =>
      rw [openAnswer] at opens
      cases result with
      | error cause => exact .inl opens
      | ok =>
          obtain ⟨started, buffer⟩ := opens
          dsimp only
          obtain ⟨emptied, _, _⟩ :=
            applyBatchFrame sink.watched begun.buffer.reverse { begun with buffer := [] }
          obtain ⟨applied, refused, all, counted⟩ :=
            gaugeBatch sink { begun with buffer := [] } begun.buffer.reverse
          generalize applyBatch sink.watched begun.buffer.reverse { begun with buffer := [] } =
            wrote at emptied counted ⊢
          have handed : wrote.gauge = committer.gauge.start.handOn applied refused := by
            rw [counted, ← started]
            rfl
          have since : wrote.sinceCommit =
              (committer.gauge.start.handOn applied refused).sinceCommit :=
            congrArg Gauge.sinceCommit handed
          have count : applied + refused = committer.buffer.length := by
            rw [all, List.length_reverse, buffer]
          split
          · rename_i reached
            rw [since] at reached
            refine leavesMono (gaugeCommit sink wrote) ?_ fun _ _ given => .inr ⟨_, given⟩
            rintro after ⟨settled, still⟩
            refine ⟨still.trans emptied, applied, refused, count, ?_⟩
            rw [settled, handed, Gauge.flush, if_pos reached]
          · rename_i short
            rw [since] at short
            refine ⟨emptied, applied, refused, count, ?_⟩
            rw [handed, Gauge.flush, if_neg short]

/-- A flush of whatever is buffered. -/
theorem gaugeEmptied :
    Leaves
      (fun after => after.buffer = [] ∧
        ∃ applied refused, applied + refused = committer.buffer.length ∧
          after.gauge = if committer.buffer.length = 0 then committer.gauge
            else committer.gauge.flush cadence applied refused)
      (fun _ after => committer.gauge.Fails after.gauge)
      (committer.flush sink.watched cadence) := by
  by_cases empty : committer.buffer = []
  · rw [flush, empty]
    exact ⟨empty, 0, 0, rfl, rfl⟩
  · refine leavesMono (gaugeFlush sink cadence committer empty) ?_ fun _ _ fails => fails
    rintro after ⟨emptied, applied, refused, all, flushed⟩
    refine ⟨emptied, applied, refused, all, ?_⟩
    rw [flushed, if_neg (by rwa [List.length_eq_zero_iff])]

/-- Committing what is pending hands on what is buffered and ends the open transaction. -/
theorem gaugePending :
    Leaves
      (fun after => after.buffer = [] ∧
        ∃ applied refused, applied + refused = committer.buffer.length ∧
          after.gauge = (if committer.buffer.length = 0 then committer.gauge
            else committer.gauge.flush cadence applied refused).finish)
      (fun _ after => committer.gauge.Fails after.gauge)
      (committer.commitPending sink.watched cadence) := by
  have flushes := gaugeEmptied sink cadence committer
  unfold commitPending
  cases answer : committer.flush sink.watched cadence with
  | mk result flushed =>
      rw [answer] at flushes
      cases result with
      | error cause => exact flushes
      | ok =>
          obtain ⟨emptied, applied, refused, all, gauge⟩ := flushes
          have busy : flushed.gauge.busy = flushed.inTransaction := rfl
          dsimp only
          by_cases opened : flushed.inTransaction = true
          · rw [if_pos opened]
            refine leavesMono (gaugeCommit sink flushed) ?_ fun _ _ given => .inr ⟨_, given⟩
            rintro after ⟨settled, still⟩
            refine ⟨still.trans emptied, applied, refused, all, ?_⟩
            rw [settled, ← gauge, Gauge.finish, busy, if_pos opened]
          · rw [if_neg opened]
            refine ⟨emptied, applied, refused, all, ?_⟩
            rw [← gauge, Gauge.finish, busy, if_neg opened]

end Committer

end Backfill
