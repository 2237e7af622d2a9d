/-
This file keeps a transcript of the writes that a history of calls makes to a replica: the replica
holds what the writes of the transcript leave.
-/

import Backfill.Proofs.Replica.Entries
import Backfill.Replica.Trace

namespace Backfill

namespace Sink

variable {σ : Type}

/-- Makes a call to a sink. -/
def make (sink : Sink σ) : SinkCall → σ → Except ReplicaError Unit × σ
  | .begin => sink.begin
  | .apply update records => sink.apply update records
  | .commit => sink.commit
  | .rollback => sink.rollback

/-- The state after calls in order, however they are answered. -/
def makeAll (sink : Sink σ) (calls : List SinkCall) (state : σ) : σ :=
  calls.foldl (fun state call => (sink.make call state).2) state

end Sink

/-- The writes of a replica: the durable ones and, while a transaction is open, those of the working
copy. -/
structure Transcript where
  durable : List Write
  working : Option (List Write)

namespace Transcript

/-- Nothing is written before the first call. -/
def blank : Transcript :=
  ⟨[], none⟩

/-- The writes that the replica's own questions are answered from. -/
def visible (transcript : Transcript) : List Write :=
  transcript.working.getD transcript.durable

/-- The transcript after a call, where a batch counts if all its records can be stored. -/
def enter (transcript : Transcript) : SinkCall → Transcript
  | .begin => { transcript with working := some transcript.visible }
  | .apply update records =>
      if records.all Record.isStorable then
        { transcript with
          working := transcript.working.map (· ++ records.map (Write.mk update)) }
      else transcript
  | .commit => ⟨transcript.visible, none⟩
  | .rollback => ⟨transcript.durable, none⟩

/-- The transcript of calls in order. -/
def ofCalls (calls : List SinkCall) : Transcript :=
  calls.foldl enter blank

/-- The replica that the writes of a transcript leave. -/
def replica (tables : Tables) (transcript : Transcript) : Replica :=
  ⟨tables.enterAll transcript.durable, transcript.working.map tables.enterAll⟩

/-- What can be asked of that replica is what the visible writes leave. -/
theorem visibleReplica (tables : Tables) (transcript : Transcript) :
    (transcript.replica tables).visible = tables.enterAll transcript.visible := by
  obtain ⟨durable, working⟩ := transcript
  cases working <;> rfl

/-- A batch is applied if and only if all its records can be stored. -/
theorem applyRecordsEq (update : Bool) (tables : Tables) (records : List Record) :
    if records.all Record.isStorable then
      tables.applyRecords update records =
        .ok (tables.enterAll (records.map (Write.mk update)))
    else ∃ cause, tables.applyRecords update records = .error cause := by
  cases applied : tables.applyRecords update records with
  | ok next =>
      obtain ⟨same, storable⟩ := Tables.applyRecordsOk applied
      rw [if_pos (List.all_eq_true.mpr storable), same, Tables.enterAllOfRecords]
  | error cause =>
      obtain ⟨record, member, unstorable⟩ := Tables.applyRecordsError applied
      rw [if_neg]
      · exact ⟨cause, rfl⟩
      · intro all
        have storable := List.all_eq_true.mp all record member
        rw [unstorable] at storable
        cases storable

/-- A call does to the replica what it does to the transcript. -/
theorem makeReplica (tables : Tables) (transcript : Transcript) (call : SinkCall) :
    (Replica.store.toSink.make call (transcript.replica tables)).2 =
      (transcript.enter call).replica tables := by
  obtain ⟨durable, working⟩ := transcript
  cases call with
  | begin => cases working <;> rfl
  | apply update records =>
      cases working with
      | none => cases all : records.all Record.isStorable <;> simp [enter, all] <;> rfl
      | some writes =>
          have applied := applyRecordsEq update (tables.enterAll writes) records
          cases all : records.all Record.isStorable with
          | true =>
              rw [all, if_pos rfl] at applied
              simp only [Sink.make, Replica.store, Replica.apply, replica, Option.map_some,
                applied, enter, all, if_true, Tables.enterAllAppend]
          | false =>
              rw [all, if_neg (by decide)] at applied
              obtain ⟨cause, refused⟩ := applied
              simp only [Sink.make, Replica.store, Replica.apply, replica, Option.map_some,
                refused, enter, all, Bool.false_eq_true, if_false]
  | commit => cases working <;> rfl
  | rollback => rfl

/-- After any calls a replica holds what the writes of their transcript leave. -/
theorem replicaOfCalls (tables : Tables) (calls : List SinkCall) :
    Replica.store.makeAll calls (.ofTables tables) = (ofCalls calls).replica tables := by
  have general (transcript : Transcript) :
      Replica.store.makeAll calls (transcript.replica tables) =
        (calls.foldl enter transcript).replica tables := by
    induction calls generalizing transcript with
    | nil => rfl
    | cons call rest inductionHypothesis =>
        rw [Sink.makeAll, List.foldl_cons, ← Sink.makeAll, makeReplica, inductionHypothesis]
        rfl
  exact general blank

end Transcript

end Backfill
