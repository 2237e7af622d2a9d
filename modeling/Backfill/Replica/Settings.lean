/-
This file holds the settings of the replica.
-/

import Backfill.Config.Fault
import Backfill.Datum.Shape

namespace Backfill

/-- The replica is a file, which may be locked for some time by another writer. -/
structure ReplicaSettings where
  path : String
  busyTimeout : UInt64
deriving DecidableEq, Repr

namespace ReplicaSettings

/-- The settings unless configured otherwise. -/
def standard : ReplicaSettings :=
  ⟨"chainmend.db", 5000⟩

/-- The settings are a structure whose fields all have defaults. -/
def shape : Shape ReplicaSettings ReplicaSettings where
  title := "struct ReplicaConfig"
  fields := [
    .optional "path" (Datum.readTextAs "path string") fun value draft =>
      { draft with path := value },
    .optional "busy_timeout_ms" Datum.readWord64 fun value draft =>
      { draft with busyTimeout := value }]
  blank := standard
  finish := .ok

/-- The replica has to have a path. -/
def validate (settings : ReplicaSettings) : Except SettingFault Unit :=
  if settings.path.isEmpty then .error .emptyReplicaPath else .ok ()

end ReplicaSettings

end Backfill
