/-
This file gives advice on how to get past the end of a run.
-/

import Backfill.Json.Value
import Backfill.Repair.Fault

namespace Backfill

/-- A command with a label that says what it is for. -/
structure AdvisedCommand where
  label : String
  command : String
deriving DecidableEq, Repr

/-- Advice has a summary, commands to run, and other ways out. -/
structure Advice where
  summary : String
  commands : List AdvisedCommand
  alternatives : List String
deriving DecidableEq, Repr

namespace Advice

/-- The text of advice ends each of its lines. -/
def text (advice : Advice) : String :=
  let commands := advice.commands.map fun item => s!"    - {item.label}: {item.command}\n"
  let alternatives := advice.alternatives.map fun item => s!"    - {item}\n"
  "To fix:\n  " ++ advice.summary ++ "\n" ++
    (if commands.isEmpty then "" else "  Commands:\n" ++ String.join commands) ++
    (if alternatives.isEmpty then "" else "  Alternatives:\n" ++ String.join alternatives)

/-- The value of advice. -/
def toJson (advice : Advice) : Json.Value :=
  .table [
    ("summary", .text advice.summary),
    ("commands", .list (advice.commands.map fun item =>
      .table [("label", .text item.label), ("command", .text item.command)])),
    ("alternatives", .list (advice.alternatives.map .text))]

end Advice

/-- The command that lists the missing ranges. -/
def AdvisedCommand.gaps (label : String) : AdvisedCommand :=
  ⟨label, "chainmend gaps"⟩

/-- The command that repairs again. -/
def AdvisedCommand.repair : AdvisedCommand :=
  ⟨"Re-run repair", "chainmend repair"⟩

/-- The command that shows the configuration in force. -/
def AdvisedCommand.config : AdvisedCommand :=
  ⟨"Show effective config", "chainmend config"⟩

/-- Advice on a failure of the replica. -/
def ReplicaError.advice : ReplicaError → Advice
  | .database _ | .file _ =>
      { summary := "Replica operation failed. Check the replica path and permissions."
        commands := [.gaps "Show gaps"]
        alternatives := ["Ensure no other process holds a write lock on the replica."] }
  | .integerOverflow field =>
      { summary := s!"Value for {field} does not fit the replica column type."
        commands := [.gaps "Show gaps"]
        alternatives := [] }
  | .invalidValue _ | .gapOrder _ =>
      { summary := "Gap detection produced inconsistent ranges. The replica may be corrupt."
        commands := [⟨"Integrity check", "sqlite3 replica.db 'PRAGMA integrity_check'"⟩]
        alternatives := [] }
  | .noTransaction =>
      { summary := "Internal sequencing error; re-run the repair."
        commands := [.repair]
        alternatives := [] }

/-- Advice on a refusal of the configuration. -/
def ConfigError.advice : ConfigError → Advice
  | .fileNotFound path =>
      { summary := s!"Config file not found: {path}. Verify the path and retry."
        commands := [⟨"Check path", "ls -l \"" ++ path ++ "\""⟩]
        alternatives := ["Pass --config with the correct path."] }
  | .readFailed path _ =>
      { summary := s!"Failed to read config file: {path}. Check permissions."
        commands := [⟨"Check permissions", "ls -l \"" ++ path ++ "\""⟩]
        alternatives := [] }
  | .parseFailed _ | .serializeFailed _ =>
      { summary := "Config parse failed. Fix the TOML syntax and retry."
        commands := [.config]
        alternatives := [] }
  | .invalidOverride key _ =>
      { summary := s!"Environment override {key} is not valid. Fix or unset it."
        commands := [⟨"Unset override", s!"unset {key}"⟩]
        alternatives := [] }
  | .validation _ =>
      { summary := "Config validation failed. Fix the invalid fields and retry."
        commands := [.config]
        alternatives := [] }

namespace RunError

/-- Advice on the end of a run. -/
def advice : RunError → Advice
  | .config cause => cause.advice
  | .replica cause => cause.advice
  | .log _ =>
      { summary := "Check the state-change directory and file names, then retry."
        commands := [⟨"Inspect log", "chainmend scan-log"⟩]
        alternatives := ["Unset binlog.dir to repair from the remote API only."] }
  | .commit _ _ =>
      { summary := "A commit failed. Re-run the repair; writes are upserts and safe to repeat."
        commands := [.gaps "Re-detect gaps", .repair]
        alternatives := ["Check disk space and replica file permissions."] }
  | .runtime _ | .panicked _ =>
      { summary := "Re-run the repair; completed ranges are not repeated."
        commands := [.repair]
        alternatives := ["If the failure persists, lower --workers and retry."] }

/-- The wording of the end of a run, followed by the advice on it. -/
def report (error : RunError) : String :=
  s!"Error: {error.message}\n\n{error.advice.text}"

end RunError

end Backfill
