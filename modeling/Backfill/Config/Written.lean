/-
This file writes a configuration as a configuration file.
-/

import Backfill.Config.Basic
import Backfill.Toml.Text

namespace Backfill

/-- A value in a section of a configuration file. -/
inductive Entry
  | text (value : String)
  | number (value : Nat)
  | boolean (value : Bool)
deriving DecidableEq, Repr

namespace Entry

/-- The text of a value, if the file can hold it: its numbers are signed words. -/
def written? : Entry → Option String
  | .text value => some (Toml.quoted value)
  | .number value => if value ≤ maxSigned then some (toString value) else none
  | .boolean value => some (if value then "true" else "false")

end Entry

/-- A section has a name and named values. -/
structure Section where
  name : String
  entries : List (String × Entry)
deriving DecidableEq, Repr

namespace Section

/-- The lines of a section. -/
def written? (part : Section) : Option String := do
  let lines ← part.entries.mapM fun (key, entry) => do
    return key ++ " = " ++ (← entry.written?) ++ "\n"
  return "[" ++ part.name ++ "]\n" ++ String.join lines

end Section

namespace Config

/-- The sections of a configuration, without the settings that are absent. -/
def sections (config : Config) : List Section := [
  ⟨"replica", [
    ("path", .text config.replica.path),
    ("busy_timeout_ms", .number config.replica.busyTimeout.toNat)]⟩,
  ⟨"remote", [
    ("node_url", .text config.node.url),
    ("timeout_secs", .number config.node.timeoutSeconds.toNat),
    ("fetch_attempts", .number config.node.attempts.toNat),
    ("retry_initial_delay_ms", .number config.node.firstDelay.toNat),
    ("retry_max_delay_ms", .number config.node.longestDelay.toNat)]⟩,
  ⟨"binlog", (config.log.directory.map fun directory => ("dir", Entry.text directory)).toList ++ [
    ("index_file", .text config.log.indexFile),
    ("data_file", .text config.log.dataFile),
    ("layout", .text config.log.layout.text),
    ("max_record_bytes", .number config.log.maxRecordBytes.toNat),
    ("max_decode_errors", .number config.log.maxDecodeErrors.toNat),
    ("scan_slack_floor", .number config.log.slackFloor.toNat),
    ("records_per_block", .number config.log.recordsPerBlock.toNat)]⟩,
  ⟨"repair", [
    ("workers", .number config.repair.workers.toNat),
    ("commit_interval", .number config.repair.commitInterval.toNat),
    ("apply_batch_size", .number config.repair.batchSize.toNat),
    ("fetch_window", .number config.repair.fetchWindow.toNat),
    ("sequential_max", .number config.repair.sequentialMax.toNat),
    ("parallel_max", .number config.repair.parallelMax.toNat),
    ("detect_from_genesis", .boolean config.repair.fromGenesis)]⟩,
  ⟨"logging", [
    ("level", .text config.events.level),
    ("format", .text config.events.format.text)] ++
    (config.events.file.map fun file => ("file", Entry.text file)).toList⟩]

/-- The configuration file that holds a configuration, with a blank line between sections. -/
def written (config : Config) : Except ConfigError String :=
  match config.sections.mapM Section.written? with
  | some parts => .ok ("\n".intercalate parts)
  | none => .error (.serializeFailed "")

end Config

end Backfill
