/-
This file holds the configuration of the program.
-/

import Backfill.Event.Settings
import Backfill.Fetch.Settings
import Backfill.Log.Settings
import Backfill.Repair.Settings
import Backfill.Replica.Settings

namespace Backfill

/-- A configuration has a section for each part of the program. -/
structure Config where
  replica : ReplicaSettings
  node : NodeSettings
  log : LogSettings
  repair : RepairSettings
  events : EventSettings
deriving DecidableEq, Repr

namespace Config

/-- The configuration without a file. -/
def standard : Config :=
  ⟨.standard, .standard, .standard, .standard, .standard⟩

/-- A configuration is a structure of sections, each of which may be absent. -/
def shape : Shape Config Config where
  title := "struct Config"
  fields := [
    .optional "replica" ReplicaSettings.shape.read fun value draft =>
      { draft with replica := value },
    .optional "remote" NodeSettings.shape.read fun value draft => { draft with node := value },
    .optional "binlog" LogSettings.shape.read fun value draft => { draft with log := value },
    .optional "repair" RepairSettings.shape.read fun value draft => { draft with repair := value },
    .optional "logging" EventSettings.shape.read fun value draft => { draft with events := value }]
  blank := standard
  finish := .ok

/-- The first fault of the sections in order. -/
def check (config : Config) : Except SettingFault Unit := do
  config.node.validate
  config.log.validate
  config.repair.validate
  config.replica.validate

/-- Whether the configuration can be used. -/
def validate (config : Config) : Except ConfigError Unit :=
  config.check.mapError fun fault => .validation fault.message

end Config

end Backfill
