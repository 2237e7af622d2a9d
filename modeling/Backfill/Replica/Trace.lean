/-
This file wraps sinks and stores so that their calls are traced and fail where they are told to.
-/

import Backfill.Replica.Sink

namespace Backfill

/-- A call to a sink. -/
inductive SinkCall
  | begin
  | apply (update : Bool) (records : List Record)
  | commit
  | rollback
deriving DecidableEq, Repr

/-- The name of a call. -/
def SinkCall.name : SinkCall → String
  | .begin => "begin"
  | .apply _ _ => "apply"
  | .commit => "commit"
  | .rollback => "rollback"

/-- A traced state knows the calls that led to it, the last one first, and which of them were
answered well. -/
structure Traced (σ : Type) where
  inner : σ
  calls : List (SinkCall × Bool)

namespace Traced

variable {σ : Type}

/-- A state to which no call led. -/
def new (inner : σ) : Traced σ :=
  ⟨inner, []⟩

/-- The number of calls of a name. -/
def count (name : String) (traced : Traced σ) : Nat :=
  traced.calls.countP fun call => call.1.name = name

/-- The state after a call was answered. -/
def record (call : SinkCall) (traced : Traced σ) (answer : Except ReplicaError Unit × σ) :
    Except ReplicaError Unit × Traced σ :=
  (answer.1, ⟨answer.2, (call, answer.1.toBool) :: traced.calls⟩)

end Traced

/-- What the n-th call of a name is refused with, counted from one. -/
abbrev Outages := SinkCall → Nat → Option ReplicaError

namespace Sink

variable {σ : Type}

/-- A call that is refused does not reach the sink. -/
def guard (outages : Outages) (call : SinkCall) (act : σ → Except ReplicaError Unit × σ)
    (traced : Traced σ) : Except ReplicaError Unit × Traced σ :=
  traced.record call <|
    match outages call (traced.count call.name + 1) with
    | some cause => (.error cause, traced.inner)
    | none => act traced.inner

/-- A transaction is given up also where the call that does so is refused. -/
def guardRollback (outages : Outages) (sink : Sink σ) (traced : Traced σ) :
    Except ReplicaError Unit × Traced σ :=
  let answer := sink.rollback traced.inner
  traced.record .rollback <|
    match outages .rollback (traced.count SinkCall.rollback.name + 1) with
    | some cause => (.error cause, answer.2)
    | none => answer

/-- The sink with its calls traced and some of them refused. -/
def traced (sink : Sink σ) (outages : Outages) : Sink (Traced σ) where
  begin := guard outages .begin sink.begin
  apply update records := guard outages (.apply update records) (sink.apply update records)
  commit := guard outages .commit sink.commit
  rollback := guardRollback outages sink
  applied := sink.applied

end Sink

/-- The store with its calls traced and some of them refused. -/
def Store.traced {σ : Type} (store : Store σ) (outages : Outages) : Store (Traced σ) where
  toSink := store.toSink.traced outages
  interior traced := store.interior traced.inner
  lowest traced := store.lowest traced.inner
  holds traced := store.holds traced.inner

end Backfill
