/-
This file holds the settings of the event log.
-/

import Backfill.Datum.Shape

namespace Backfill

/-- Events are written for people or as JSON. -/
inductive EventFormat
  | pretty
  | json
deriving DecidableEq, Repr

namespace EventFormat

/-- The names of the formats. -/
def names : List (String × EventFormat) :=
  [("pretty", .pretty), ("json", .json)]

/-- The text of a format. -/
def text : EventFormat → String
  | .pretty => "pretty"
  | .json => "json"

/-- An unknown name of a format, in lower case. -/
structure Unknown where
  name : String
deriving DecidableEq, Repr

/-- This is the wording of the refusal. -/
def Unknown.message (unknown : Unknown) : String :=
  s!"unknown log format: {unknown.name} (expected pretty or json)"

/-- The format that a name of any case gives. -/
def ofName (name : String) : Except Unknown EventFormat :=
  let lower := name.map Char.toLower
  match names.lookup lower with
  | some format => .ok format
  | none => .error ⟨lower⟩

end EventFormat

/-- Events are filtered by a directive, written in a format, and kept in a file if there is one. -/
structure EventSettings where
  level : String
  format : EventFormat
  file : Option String
deriving DecidableEq, Repr

namespace EventSettings

/-- The settings unless configured otherwise. -/
def standard : EventSettings :=
  ⟨"info", .pretty, none⟩

/-- The settings are a structure whose fields all have defaults. -/
def shape : Shape EventSettings EventSettings where
  title := "struct LogConfig"
  fields := [
    .optional "level" Datum.readText fun value draft => { draft with level := value },
    .optional "format" (Datum.readVariant EventFormat.names) fun value draft =>
      { draft with format := value },
    .optional "file" (Datum.readOption (Datum.readTextAs "path string")) fun value draft =>
      { draft with file := value }]
  blank := standard
  finish := .ok

end EventSettings

/-- Logging cannot be set up for one of these reasons. -/
inductive EventLogError
  | alreadyInitialized
  | invalidLevel (detail : String)
  | fileCreate (detail : String)
deriving DecidableEq, Repr

/-- This is the wording of a reason. -/
def EventLogError.message : EventLogError → String
  | .alreadyInitialized => "logging already initialized"
  | .invalidLevel detail => s!"invalid log level: {detail}"
  | .fileCreate detail => s!"failed to create log file: {detail}"

end Backfill
