/-
This file holds the events that are logged while the program works.
-/

import Backfill.Height.Range
import Backfill.Json.Value

namespace Backfill

/-- How important an event is. -/
inductive Severity
  | error
  | warn
  | info
  | debug
  | trace
deriving DecidableEq, Repr

/-- The text of a severity. -/
def Severity.text : Severity → String
  | .error => "ERROR"
  | .warn => "WARN"
  | .info => "INFO"
  | .debug => "DEBUG"
  | .trace => "TRACE"

/-- Severities are ranked from the gravest on. -/
def Severity.rank : Severity → Nat
  | .error => 1
  | .warn => 2
  | .info => 3
  | .debug => 4
  | .trace => 5

/-- The part of the program that an event comes from. -/
inductive Area
  | command
  | settings
  | replica
  | log
  | retry
  | node
  | acquisition
  | committer
  | repair
deriving DecidableEq, Repr

/-- The name of a part in filters. -/
def Area.target : Area → String
  | .command => "chainmend"
  | .settings => "chainmend_core::logging"
  | .replica => "chainmend_core::replica"
  | .log => "chainmend_core::binlog"
  | .retry => "chainmend_core::retry"
  | .node => "chainmend_core::remote"
  | .acquisition => "chainmend_core::strategy"
  | .committer => "chainmend_core::committer"
  | .repair => "chainmend_core::repair"

/-- An event has a message and named values. -/
structure Event where
  severity : Severity
  area : Area
  message : String
  fields : List (String × Json.Value)

namespace Event

/-- The fields that name the bounds of a range. -/
def bounds (range : HeightRange) : List (String × Json.Value) :=
  [("start", .natural range.start), ("end", .natural range.stop)]

/-- The value of an event. -/
def toJson (event : Event) : Json.Value :=
  .table ([("level", .text event.severity.text), ("message", .text event.message)] ++ event.fields)

end Event

end Backfill
