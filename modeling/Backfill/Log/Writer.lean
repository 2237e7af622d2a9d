/-
This file writes binary logs: an index with one entry per record, and the data with the records.
-/

import Backfill.Log.Length
import Backfill.Log.Settings
import Backfill.Record.Json

namespace Backfill

/-- The eight bytes of a word, the lowest first. -/
def wordBytes (word : Nat) : List UInt8 :=
  (List.range 8).map fun position => UInt8.ofNat (word / Nat.pow 256 position % 256)

/-- A log that is being written holds both files and the number of its entries. -/
structure LogWriter where
  layout : IndexLayout
  index : Array UInt8
  data : Array UInt8
  entries : Nat
deriving DecidableEq, Repr

namespace LogWriter

/-- A log without entries. -/
def empty (layout : IndexLayout) : LogWriter :=
  ⟨layout, #[], #[], 0⟩

/-- The index entry of a payload at an offset. -/
def entryBytes (layout : IndexLayout) (offset length height : Nat) : List UInt8 :=
  match layout with
  | .offsets => wordBytes offset
  | .extended => wordBytes offset ++ wordBytes length ++ wordBytes height

/-- The log with one more payload, whose position is the number of entries before it. -/
def appendRaw (log : LogWriter) (payload : Bytes) (height : Nat) : LogWriter :=
  { log with
    index := log.index ++ entryBytes log.layout log.data.size payload.length height
    data := log.data ++ Length.write payload.length ++ payload
    entries := log.entries + 1 }

/-- The log with one more record. -/
def append (log : LogWriter) (record : Record) : LogWriter :=
  log.appendRaw (Text.Utf8.encode record.encode) record.height.toNat

end LogWriter

end Backfill
