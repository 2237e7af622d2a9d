/-
This file holds the settings of a repair.
-/

import Backfill.Config.Fault
import Backfill.Datum.Shape

namespace Backfill

/-- The sizes up to which a range is fetched one height at a time, and by several workers although
there is a log. -/
structure Thresholds where
  sequential : UInt64
  parallel : UInt64
deriving DecidableEq, Repr

/-- The thresholds unless configured otherwise. -/
def Thresholds.standard : Thresholds :=
  ⟨100, 10000⟩

/-- How many applied records make a transaction, and how many records make a batch. -/
structure CommitSettings where
  interval : UInt64
  batchSize : UInt64
deriving DecidableEq, Repr

/-- The settings unless configured otherwise. -/
def CommitSettings.standard : CommitSettings :=
  ⟨10000, 100⟩

/-- A repair has workers that fetch, a window of heights that they share, a cadence of commits, and
thresholds. -/
structure RepairSettings where
  workers : UInt64
  commitInterval : UInt64
  batchSize : UInt64
  fetchWindow : UInt64
  sequentialMax : UInt64
  parallelMax : UInt64
  /-- Whether heights below the lowest populated one count as missing. -/
  fromGenesis : Bool
deriving DecidableEq, Repr

namespace RepairSettings

/-- The settings unless configured otherwise. -/
def standard : RepairSettings :=
  { workers := 100
    commitInterval := CommitSettings.standard.interval
    batchSize := CommitSettings.standard.batchSize
    fetchWindow := 50000
    sequentialMax := Thresholds.standard.sequential
    parallelMax := Thresholds.standard.parallel
    fromGenesis := true }

/-- A count of one word. -/
def readCount : DatumReader UInt64 := fun medium datum =>
  (Datum.readNat "usize" 64 medium datum).map UInt64.ofNat

/-- The settings are a structure whose fields all have defaults. -/
def shape : Shape RepairSettings RepairSettings where
  title := "struct RepairConfig"
  fields := [
    .optional "workers" readCount fun value draft => { draft with workers := value },
    .optional "commit_interval" Datum.readWord64 fun value draft =>
      { draft with commitInterval := value },
    .optional "apply_batch_size" readCount fun value draft => { draft with batchSize := value },
    .optional "fetch_window" Datum.readWord64 fun value draft => { draft with fetchWindow := value },
    .optional "sequential_max" Datum.readWord64 fun value draft =>
      { draft with sequentialMax := value },
    .optional "parallel_max" Datum.readWord64 fun value draft => { draft with parallelMax := value },
    .optional "detect_from_genesis" Datum.readBoolean fun value draft =>
      { draft with fromGenesis := value }]
  blank := standard
  finish := .ok

/-- The counts have to be positive and the thresholds in order. -/
def validate (settings : RepairSettings) : Except SettingFault Unit :=
  if settings.workers = 0 then .error (.notPositive "repair.workers")
  else if settings.commitInterval = 0 then .error (.notPositive "repair.commit_interval")
  else if settings.batchSize = 0 then .error (.notPositive "repair.apply_batch_size")
  else if settings.fetchWindow = 0 then .error (.notPositive "repair.fetch_window")
  else if settings.parallelMax ≤ settings.sequentialMax then
    .error (.thresholds settings.sequentialMax.toNat settings.parallelMax.toNat)
  else .ok ()

/-- The thresholds of a repair. -/
def thresholds (settings : RepairSettings) : Thresholds :=
  ⟨settings.sequentialMax, settings.parallelMax⟩

/-- The cadence of commits of a repair. -/
def commits (settings : RepairSettings) : CommitSettings :=
  ⟨settings.commitInterval, settings.batchSize⟩

end RepairSettings

end Backfill
