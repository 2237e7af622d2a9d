/-
This file finds the configuration file and loads it.
-/

import Backfill.Config.Override
import Backfill.Config.Reader
import Backfill.File.Host
import Backfill.Text.Utf8

namespace Backfill.Config

variable {m : Type → Type} [Monad m]

/-- The directory of the user's configuration files, if it can be told. -/
def userDirectory? (host : Host m) : m (Option String) := do
  match (← host.value? "XDG_CONFIG_HOME").filter Path.isAbsolute with
  | some directory => return some directory
  | none =>
      let home := (← host.value? "HOME").filter (!·.isEmpty)
      return home.map (Path.join · ".config")

/-- The place of the user's own configuration file. -/
def userPath? (host : Host m) : m (Option String) := do
  return (← userDirectory? host).map fun directory =>
    Path.join (Path.join directory "chainmend") "chainmend.toml"

/-- The configuration file is the one that is named explicitly, else the one that the environment
names, else the user's own if there is one. -/
def locate (host : Host m) (explicit : Option String) : m (Option String) := do
  match explicit with
  | some path => return some path
  | none =>
      match (← host.value? "CHAINMEND_CONFIG").map Text.trim |>.filter (!·.isEmpty) with
      | some path => return some path
      | none =>
          match ← userPath? host with
          | none => return none
          | some path => return if ← host.isFile path then some path else none

/-- The configuration in the file at a path. -/
def load (host : Host m) (path : String) : m (Except ConfigError Config) := do
  match ← host.kind? path with
  | none => return .error (.fileNotFound path)
  | some _ =>
      match ← host.read path with
      | .error fault => return .error (.readFailed path fault.message)
      | .ok content =>
          match Text.Utf8.text? content.toList with
          | none => return .error (.readFailed path FileFault.notText.message)
          | some text => return ofToml text

/-- The configuration in a file that was located; without a file it is the standard one. -/
def loadLocated (host : Host m) : Option String → m (Except ConfigError Config)
  | none => return .ok standard
  | some path => load host path

/-- The variables of the environment that override settings. -/
def overrideNames : List String :=
  ["CHAINMEND_NODE_URL", "CHAINMEND_WORKERS", "CHAINMEND_STATE_CHANGE_DIR",
    "CHAINMEND_REPLICA_PATH"]

/-- The environment of a host, as far as it overrides settings. -/
def environment (host : Host m) : m Environment := do
  let values ← overrideNames.mapM fun name => return (name, ← host.value? name)
  return fun name => (values.lookup name).join

end Backfill.Config
