/-
This file keeps a ledger of what a traced sink accepted and committed.
-/

import Backfill.Replica.Trace

namespace Backfill

/-- The records that a sink accepted, those of committed transactions apart from those that wait
for a commit. -/
structure Ledger where
  durable : List Record
  pending : List Record

namespace Ledger

/-- Nothing is accepted before the first call. -/
def blank : Ledger :=
  ⟨[], []⟩

/-- The ledger after a call that was answered well or not, where a rollback gives up the transaction
in either case. -/
def enter (call : SinkCall × Bool) (ledger : Ledger) : Ledger :=
  match call with
  | (.apply _ records, true) => { ledger with pending := ledger.pending ++ records }
  | (.commit, true) => ⟨ledger.durable ++ ledger.pending, []⟩
  | (.rollback, _) => { ledger with pending := [] }
  | _ => ledger

/-- Every record of the ledger. -/
def records (ledger : Ledger) : List Record :=
  ledger.durable ++ ledger.pending

end Ledger

/-- The ledger of the calls that led to a state. -/
def Traced.ledger {σ : Type} (traced : Traced σ) : Ledger :=
  traced.calls.foldr Ledger.enter .blank

namespace Sink

variable {σ : Type} {sink : Sink σ} {outages : Outages} {before after : Traced σ}

/-- The ledger after a call that passes the guard is that of the call with its answer. -/
theorem ledgerOfGuard {call : SinkCall} {act : σ → Except ReplicaError Unit × σ}
    {result : Except ReplicaError Unit}
    (answer : guard outages call act before = (result, after)) :
    after.ledger = before.ledger.enter (call, result.toBool) := by
  unfold guard Traced.record at answer
  obtain ⟨rfl, rfl⟩ := Prod.mk.inj answer
  rfl

theorem ledgerOfBegin {result : Except ReplicaError Unit}
    (answer : (sink.traced outages).begin before = (result, after)) :
    after.ledger = before.ledger := by
  rw [ledgerOfGuard answer]
  rfl

theorem ledgerOfApply {update : Bool} {records : List Record}
    (answer : (sink.traced outages).apply update records before = (.ok (), after)) :
    after.ledger = { before.ledger with pending := before.ledger.pending ++ records } := by
  rw [ledgerOfGuard answer]
  rfl

theorem ledgerOfRefusal {update : Bool} {records : List Record} {cause : ReplicaError}
    (answer : (sink.traced outages).apply update records before = (.error cause, after)) :
    after.ledger = before.ledger := by
  rw [ledgerOfGuard answer]
  rfl

theorem ledgerOfCommit (answer : (sink.traced outages).commit before = (.ok (), after)) :
    after.ledger = ⟨before.ledger.records, []⟩ := by
  rw [ledgerOfGuard answer]
  rfl

end Sink

end Backfill
