/-
This file says what takes in the records that are acquired, and what acquiring a range comes to.
-/

import Backfill.Event.Basic
import Backfill.Record.Basic
import Backfill.Repair.Fault

namespace Backfill

/-- Acquiring a range hands on a number of records, fails for the range, or ends the run. -/
inductive Acquired
  | emitted (count : Nat)
  | failed (error : RangeError)
  | ended (cause : RunError)
deriving DecidableEq, Repr

/-- What happens beside the records: a height is asked for, or an event is logged. -/
inductive Activity
  | requested (height : Nat)
  | event (event : Event)

namespace Activity

/-- The event of an activity. -/
def event? : Activity → Option Event
  | .requested _ => none
  | .event logged => some logged

/-- The height that is asked for. -/
def height? : Activity → Option Nat
  | .requested height => some height
  | .event _ => none

end Activity

/-- A consumer with states of type `κ` takes records, makes them durable and takes note of what
happens. -/
structure Consumer (κ : Type) where
  consume : Record → κ → Except RunError Unit × κ
  checkpoint : κ → Except RunError Unit × κ
  note : Activity → κ → κ

namespace Consumer

variable {κ : Type}

/-- The state after an event. -/
def log (consumer : Consumer κ) (event : Event) (state : κ) : κ :=
  consumer.note (.event event) state

/-- The state after several events. -/
def logAll (consumer : Consumer κ) (events : List Event) (state : κ) : κ :=
  events.foldl (fun state event => consumer.log event state) state

/-- Takes records in order up to the first failure. -/
def consumeAll (consumer : Consumer κ) : List Record → κ → Except RunError Unit × κ
  | [], state => (.ok (), state)
  | record :: rest, state =>
      match consumer.consume record state with
      | (.ok (), state) => consumer.consumeAll rest state
      | (.error cause, state) => (.error cause, state)

end Consumer

end Backfill
