/-
This file lets the environment override a configuration.
-/

import Backfill.Config.Basic
import Backfill.Text.Decimal

namespace Backfill

/-- An environment gives values to some names. -/
abbrev Environment := String → Option String

namespace Environment

/-- The value of a name, unless it is blank. -/
def value? (environment : Environment) (name : String) : Option String :=
  (environment name).filter fun value => !(Text.trim value).isEmpty

/-- The value of a name without blanks around it. -/
def trimmed? (environment : Environment) (name : String) : Option String :=
  (environment.value? name).map Text.trim

end Environment

namespace Config

/-- The number of workers that the environment asks for, if it asks for one. -/
def workersFrom (environment : Environment) : Except ConfigError (Option UInt64) :=
  let key := "CHAINMEND_WORKERS"
  match environment.value? key with
  | none => .ok none
  | some raw =>
      match Text.natOf? maxWord (Text.trim raw) with
      | some count => .ok (some (UInt64.ofNat count))
      | none => .error (.invalidOverride key raw)

/-- The configuration with the values of the environment put in place. -/
def override (config : Config) (environment : Environment) : Except ConfigError Config := do
  let workers ← workersFrom environment
  let url := (environment.trimmed? "CHAINMEND_NODE_URL").getD config.node.url
  let directory := (environment.trimmed? "CHAINMEND_STATE_CHANGE_DIR").or config.log.directory
  let path := (environment.trimmed? "CHAINMEND_REPLICA_PATH").getD config.replica.path
  return { config with
    node := { config.node with url }
    repair := { config.repair with workers := workers.getD config.repair.workers }
    log := { config.log with directory }
    replica := { config.replica with path } }

end Config

end Backfill
