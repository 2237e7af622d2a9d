/-
This file keeps the log of events.
-/

import Backfill.Event.Filter
import Backfill.Event.Settings
import Backfill.File.Host
import Backfill.Text.Utf8
import Backfill.Time.Stamp

namespace Backfill

/-- A log of events filters them, writes them in a format, and keeps them in a file if it has
one. -/
structure EventLog where
  filter : EventFilter
  format : EventFormat
  file : Option String
deriving DecidableEq, Repr

namespace Event

/-- The value of an event at a time. -/
def stamped (time : Int) (event : Event) : Json.Value :=
  .table ([("timestamp", .text (Time.stampText time)), ("level", .text event.severity.text),
    ("message", .text event.message)] ++ event.fields ++ [("target", .text event.area.target)])

/-- A field of an event for people to read. -/
def fieldText (field : String × Json.Value) : String :=
  match field.2 with
  | .text value => s!" {field.1}={value}"
  | value => s!" {field.1}={value.compact}"

/-- The line of an event at a time. -/
def line (format : EventFormat) (time : Int) (event : Event) : String :=
  match format with
  | .json => (event.stamped time).compact ++ "\n"
  | .pretty =>
      s!"{Time.stampText time} {event.severity.text} {event.area.target}: {event.message}" ++
        String.join (event.fields.map fieldText) ++ "\n"

end Event

namespace EventLog

variable {m : Type → Type} [Monad m]

/-- The filter that the environment states, if it states one, else that of the settings. -/
def filterOf (settings : EventSettings) (stated : Option String) :
    Except EventLogError EventFilter :=
  match stated.bind EventFilter.ofText? with
  | some filter => .ok filter
  | none =>
      match EventFilter.ofText? settings.level with
      | some filter => .ok filter
      | none => .error (.invalidLevel s!"{settings.level}: invalid filter directive")

/-- The permissions of a directory that is made for the log. -/
def directoryMode : Nat := 0o700

/-- The permissions of a file that is made for the log. -/
def fileMode : Nat := 0o600

/-- Makes something that is not there yet, and then sets its permissions. -/
def makeAnew (host : Host m) (path : String) (mode : Nat) (make : m (Except FileFault Unit)) :
    m (Except FileFault Unit) := do
  let known := (← host.kind? path).isSome
  match ← make with
  | .error fault => return .error fault
  | .ok () =>
      if !known then host.restrict path mode
      return .ok ()

/-- Makes the file of the log and its directory, if they are not there. -/
def makeFile (host : Host m) (path : String) : m (Except FileFault Unit) := do
  let file := makeAnew host path fileMode (host.append path #[])
  match (Path.parent? path).filter (!·.isEmpty) with
  | none => file
  | some parent =>
      match ← makeAnew host parent directoryMode (host.makeDirectories parent) with
      | .error fault => return .error fault
      | .ok () => file

/-- Opens the log that settings ask for. -/
def openWith (host : Host m) (settings : EventSettings) : m (Except EventLogError EventLog) := do
  match filterOf settings (← host.value? "RUST_LOG") with
  | .error cause => return .error cause
  | .ok filter =>
      match settings.file with
      | none => return .ok ⟨filter, settings.format, none⟩
      | some path =>
          match ← makeFile host path with
          | .error fault => return .error (.fileCreate fault.message)
          | .ok () => return .ok ⟨filter, settings.format, some path⟩

/-- The event of opening a log. -/
def openedEvent (settings : EventSettings) : Event :=
  ⟨.debug, .settings, "logging initialized",
    [("log_level", .text settings.level), ("log_format", .text settings.format.text),
      ("log_file", .text (Text.optionalPath settings.file))]⟩

/-- Adds the events that are let through to the file of the log, and gives their lines. -/
def write (host : Host m) (log : EventLog) (events : List Event) : m (List String) := do
  let time ← host.now
  let lines := (events.filter log.filter.admits).map (Event.line log.format time)
  match log.file with
  | none => return lines
  | some path =>
      let _ ← host.append path (Text.Utf8.encode (String.join lines)).toArray
      return lines

end EventLog

end Backfill
