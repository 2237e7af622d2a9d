/-
This file holds what a command works in: it logs events and may fail.
-/

import Backfill.Command.Usage
import Backfill.Event.Basic
import Backfill.Repair.Advice

namespace Backfill.Command

/-- A command fails for one of these reasons. -/
inductive Failure
  | arguments (cause : ArgumentFault)
  | run (cause : RunError)
  | range (cause : HeightRange.Inverted)
  | log (cause : EventLogError)
deriving DecidableEq, Repr

/-- The text of a failure, which names the cause once more if it is one of the file of the event
log. -/
def Failure.text : Failure → String
  | .arguments cause => cause.text
  | .run cause => cause.report ++ "\n"
  | .range cause =>
      s!"Error: invalid manual range --start {cause.start} --end {cause.stop}: {cause.message}\n"
  | .log cause =>
      let detail := match cause with
        | .fileCreate detail => s!": {detail}"
        | _ => ""
      s!"Error: failed to initialize logging: {cause.message}{detail}\n"

/-- A session keeps the events that are logged in it, the last one first, also when it fails. -/
abbrev Session (m : Type → Type) := ExceptT Failure (StateT (List Event) m)

namespace Session

variable {m : Type → Type} [Monad m] {ε α : Type}

/-- The value of an action that cannot fail. -/
def perform (action : m α) : Session m α :=
  fun events => return (.ok (← action), events)

/-- Logs an event. -/
def log (event : Event) : Session m Unit :=
  modify (event :: ·)

/-- Logs events in order. -/
def logAll (events : List Event) : Session m Unit :=
  modify (events.reverse ++ ·)

/-- The value of a result, whose fault ends the session. -/
def require (failure : ε → Failure) (result : Except ε α) : Session m α :=
  match result with
  | .ok value => return value
  | .error cause => throw (failure cause)

/-- The value of an action, whose fault ends the session. -/
def attempt (failure : ε → Failure) (action : m (Except ε α)) : Session m α := do
  require failure (← perform action)

/-- The result of a session, with its events in order. -/
def start (session : Session m α) : m (Except Failure α × List Event) := do
  let (result, events) ← (ExceptT.run session).run []
  return (result, events.reverse)

end Session

end Backfill.Command
