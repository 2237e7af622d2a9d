/-
This file holds the settings of the binary log.
-/

import Backfill.Config.Fault
import Backfill.Datum.Shape
import Backfill.File.Path
import Backfill.Height.Range
import Backfill.Text.Blank
import Backfill.Word

namespace Backfill

/-- An index entry holds an offset, or an offset with the length and the height of the record. -/
inductive IndexLayout
  | offsets
  | extended
deriving DecidableEq, Repr

namespace IndexLayout

/-- The names of the layouts. -/
def names : List (String × IndexLayout) :=
  [("offsets", .offsets), ("extended", .extended)]

/-- The name of a layout in files. -/
def text : IndexLayout → String
  | .offsets => "offsets"
  | .extended => "extended"

/-- The bytes of an entry. -/
def width : IndexLayout → Nat
  | .offsets => 8
  | .extended => 24

theorem widthPositive (layout : IndexLayout) : 0 < layout.width := by
  cases layout <;> decide

end IndexLayout

/-- The log lies in a directory; without one there is no log. -/
structure LogSettings where
  directory : Option String
  indexFile : String
  dataFile : String
  layout : IndexLayout
  /-- Records longer than this count as undecodable. -/
  maxRecordBytes : UInt64
  /-- The undecodable entries that one scan passes over. -/
  maxDecodeErrors : UInt64
  /-- The least number of positions that a scan goes past the end of its range. -/
  slackFloor : UInt64
  /-- The most entries that a block is expected to have. -/
  recordsPerBlock : UInt64
deriving DecidableEq, Repr

namespace LogSettings

/-- The settings unless configured otherwise. -/
def standard : LogSettings :=
  { directory := none
    indexFile := "state-changes-index.bin"
    dataFile := "state-changes.bin"
    layout := .offsets
    maxRecordBytes := 10485760
    maxDecodeErrors := 100
    slackFloor := 1000000
    recordsPerBlock := 64 }

/-- The settings are a structure whose fields all have defaults. -/
def shape : Shape LogSettings LogSettings where
  title := "struct BinaryLogConfig"
  fields := [
    .optional "dir" (Datum.readOption (Datum.readTextAs "path string")) fun value draft =>
      { draft with directory := value },
    .optional "index_file" Datum.readText fun value draft => { draft with indexFile := value },
    .optional "data_file" Datum.readText fun value draft => { draft with dataFile := value },
    .optional "layout" (Datum.readVariant IndexLayout.names) fun value draft =>
      { draft with layout := value },
    .optional "max_record_bytes" Datum.readWord64 fun value draft =>
      { draft with maxRecordBytes := value },
    .optional "max_decode_errors" Datum.readWord64 fun value draft =>
      { draft with maxDecodeErrors := value },
    .optional "scan_slack_floor" Datum.readWord64 fun value draft =>
      { draft with slackFloor := value },
    .optional "records_per_block" Datum.readWord64 fun value draft =>
      { draft with recordsPerBlock := value }]
  blank := standard
  finish := .ok

/-- Both files need names, and a record and a block need room. -/
def validate (settings : LogSettings) : Except SettingFault Unit :=
  if (Text.trim settings.indexFile).isEmpty || (Text.trim settings.dataFile).isEmpty then
    .error .emptyFileNames
  else if settings.maxRecordBytes = 0 then .error (.notPositive "binlog.max_record_bytes")
  else if settings.recordsPerBlock = 0 then .error (.notPositive "binlog.records_per_block")
  else .ok ()

/-- The path of the index. -/
def indexPath? (settings : LogSettings) : Option String :=
  settings.directory.map (Path.join · settings.indexFile)

/-- The path of the data. -/
def dataPath? (settings : LogSettings) : Option String :=
  settings.directory.map (Path.join · settings.dataFile)

/-- How many positions a scan may go past the end of a range. -/
def scanBound (settings : LogSettings) (range : HeightRange) : Nat :=
  max (min (range.size * settings.recordsPerBlock.toNat) maxWord) settings.slackFloor.toNat

/-- The last position that a scan of a range may visit. -/
def lastPosition (settings : LogSettings) (range : HeightRange) : Nat :=
  min (range.stop + settings.scanBound range) maxWord

end LogSettings

end Backfill
