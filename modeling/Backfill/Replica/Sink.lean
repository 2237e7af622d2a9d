/-
This file says what records are written to.
-/

import Backfill.Event.Basic
import Backfill.Height.Index
import Backfill.Record.Basic

namespace Backfill

/-- A sink with states of type `σ` takes batches of records inside transactions, which stay usable
when a batch is refused. -/
structure Sink (σ : Type) where
  begin : σ → Except ReplicaError Unit × σ
  /-- Applies a batch; the flag says whether rows that are there may be replaced. -/
  apply : Bool → List Record → σ → Except ReplicaError Unit × σ
  commit : σ → Except ReplicaError Unit × σ
  rollback : σ → Except ReplicaError Unit × σ
  /-- The events of a batch of a given size that was applied. -/
  applied : Nat → List Event

/-- Applies records in a transaction of their own, which is ended also where they are refused. -/
def Sink.put {σ : Type} (sink : Sink σ) (update : Bool) (records : List Record) (state : σ) :
    Except ReplicaError Unit × σ :=
  match sink.begin state with
  | (.error cause, state) => (.error cause, state)
  | (.ok (), state) =>
      let (applied, state) := sink.apply update records state
      match sink.commit state with
      | (.error cause, state) => (.error cause, state)
      | (.ok (), state) => (applied, state)

/-- A store takes records and knows which heights it holds. -/
structure Store (σ : Type) extends Sink σ, HeightIndex σ

end Backfill
