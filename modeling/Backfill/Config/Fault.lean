/-
This file names what can go wrong with a configuration.
-/

namespace Backfill

/-- A setting is not valid for one of these reasons. -/
inductive SettingFault
  | emptyUrl
  | unknownScheme (url : String)
  | notPositive (name : String)
  | emptyFileNames
  | thresholds (sequential parallel : Nat)
  | emptyReplicaPath
deriving DecidableEq, Repr

/-- This is the wording of a fault. -/
def SettingFault.message : SettingFault → String
  | .emptyUrl => "remote.node_url must be non-empty"
  | .unknownScheme url => s!"remote.node_url must start with http:// or https:// (got {url})"
  | .notPositive name => s!"{name} must be >= 1"
  | .emptyFileNames => "binlog.index_file and binlog.data_file must be non-empty"
  | .thresholds sequential parallel =>
      s!"repair.sequential_max ({sequential}) must be below repair.parallel_max ({parallel})"
  | .emptyReplicaPath => "replica.path must be non-empty"

/-- A configuration is refused for one of these reasons. -/
inductive ConfigError
  | fileNotFound (path : String)
  | readFailed (path : String) (cause : String)
  | parseFailed (detail : String)
  | serializeFailed (detail : String)
  | invalidOverride (key value : String)
  | validation (reason : String)
deriving DecidableEq, Repr

/-- This is the wording of a refusal. -/
def ConfigError.message : ConfigError → String
  | .fileNotFound path => s!"Config file not found: {path}"
  | .readFailed path cause => s!"Failed to read config file {path}: {cause}"
  | .parseFailed detail => s!"Failed to parse config: {detail}"
  | .serializeFailed detail => s!"Failed to serialize config: {detail}"
  | .invalidOverride key value => s!"Invalid value for {key}: {value}"
  | .validation reason => s!"Validation error: {reason}"

end Backfill
