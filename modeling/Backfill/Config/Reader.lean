/-
This file reads a configuration from a configuration file.
-/

import Backfill.Config.Basic
import Backfill.Toml.Reader

namespace Backfill.Config

/-- The configuration that a file holds, with the defaults for what it leaves out. -/
def ofToml (text : String) : Except ConfigError Config :=
  match Toml.ofText text with
  | none => .error (.parseFailed "")
  | some datum => (shape.read .settings datum).mapError fun _ => .parseFailed ""

end Backfill.Config
