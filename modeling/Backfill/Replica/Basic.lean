/-
This file holds replicas: tables that are changed in transactions.
-/

import Backfill.Replica.Sink
import Backfill.Replica.Tables

namespace Backfill

/-- A replica has durable tables, and a working copy of them while a transaction is open. -/
structure Replica where
  committed : Tables
  working : Option Tables

namespace Replica

/-- A replica without rows. -/
def empty : Replica :=
  ⟨.empty, none⟩

/-- The replica with given tables and no open transaction. -/
def ofTables (tables : Tables) : Replica :=
  ⟨tables, none⟩

/-- The tables that the replica's own questions are answered from. -/
def visible (replica : Replica) : Tables :=
  replica.working.getD replica.committed

/-- Opens a transaction. -/
def begin (replica : Replica) : Except ReplicaError Unit × Replica :=
  match replica.working with
  | some _ => (.error (.database .nestedTransaction), replica)
  | none => (.ok (), { replica with working := some replica.committed })

/-- Applies all records of a batch or none. -/
def apply (update : Bool) (records : List Record) (replica : Replica) :
    Except ReplicaError Unit × Replica :=
  match replica.working with
  | none => (.error .noTransaction, replica)
  | some tables =>
      match tables.applyRecords update records with
      | .error cause => (.error cause, replica)
      | .ok next => (.ok (), { replica with working := some next })

/-- Makes the working copy durable. -/
def commit (replica : Replica) : Except ReplicaError Unit × Replica :=
  match replica.working with
  | none => (.error .noTransaction, replica)
  | some tables => (.ok (), .ofTables tables)

/-- Gives up the working copy, if there is one. -/
def rollback (replica : Replica) : Except ReplicaError Unit × Replica :=
  (.ok (), .ofTables replica.committed)

/-- The event of a batch that was applied. -/
def appliedEvent (count : Nat) : Event :=
  ⟨.debug, .replica, "applied batch", [("records", .natural count)]⟩

/-- Replicas as stores. -/
def store : Store Replica where
  begin := begin
  apply := apply
  commit := commit
  rollback := rollback
  applied count := [appliedEvent count]
  interior replica := replica.visible.interiorGaps
  lowest replica := replica.visible.lowest
  holds replica height := replica.visible.holds (UInt64.ofNat height)

end Replica

end Backfill
