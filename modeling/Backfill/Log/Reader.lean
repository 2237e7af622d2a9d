/-
This file opens binary logs and reads their entries.
-/

import Backfill.Event.Basic
import Backfill.File.Tree
import Backfill.Log.Fault
import Backfill.Log.Length
import Backfill.Log.Settings
import Backfill.Record.Json

namespace Backfill

/-- An index entry says where a record starts, and in the extended layout how long it is and at
which height. -/
structure IndexEntry where
  offset : Nat
  length : Option Nat
  height : Option Nat
deriving DecidableEq, Repr

/-- A record of a log comes with its position and with the offset where it starts. -/
structure LogRecord where
  position : Nat
  offset : Nat
  record : Record
deriving DecidableEq, Repr

/-- A log that was opened knows the lengths that its files had then. -/
structure LogReader where
  settings : LogSettings
  index : FileBody
  data : FileBody
  entries : Nat
  dataLength : Nat
deriving DecidableEq, Repr

/-- The length that counts for a directory in the place of a file. -/
def FileBody.directoryLength : Nat := 4096

/-- The length of what stands in the place of a file. -/
def FileBody.length : FileBody → Nat
  | .directory => directoryLength
  | .file content => content.size

/-- The word whose eight bytes, the lowest first, start at an offset. -/
def wordAt (content : Array UInt8) (offset : Nat) : Nat :=
  (content.extract offset (offset + 8)).foldr (fun byte value => byte.toNat + 256 * value) 0

namespace LogReader

/-- The log whose files have the given contents, without a partial entry at the end of the index. -/
def ofFiles (settings : LogSettings) (index data : FileBody) : LogReader :=
  ⟨settings, index, data, index.length / settings.layout.width, data.length⟩

/-- The events of opening a log. -/
def openEvents (reader : LogReader) : List Event :=
  let path := (reader.settings.indexPath?).getD ""
  let width := reader.settings.layout.width
  let length := reader.index.length
  (if length % width = 0 then []
  else [⟨.warn, .log, "index file has a partial trailing entry; ignoring it",
    [("path", .text path), ("index_len", .natural length), ("width", .natural width)]⟩]) ++
  [⟨.debug, .log, "opened binary log",
    [("index", .text path), ("entries", .natural reader.entries),
      ("data_len", .natural reader.dataLength)]⟩]

/-- The text of a reader for those who look into the program. -/
def debugText (reader : LogReader) : String :=
  let directory := Text.optionalPath reader.settings.directory
  let layout := match reader.settings.layout with
    | .offsets => "Offsets"
    | .extended => "Extended"
  "BinaryLogReader \x7b " ++ s!"dir: {directory}, layout: {layout}, entries: {reader.entries}, " ++
    s!"data_len: {reader.dataLength}, .. " ++ "\x7d"

/-- The index entry whose bytes start at an offset. -/
def entryAt (layout : IndexLayout) (content : Array UInt8) (offset : Nat) : IndexEntry :=
  match layout with
  | .offsets => ⟨wordAt content offset, none, none⟩
  | .extended =>
      ⟨wordAt content offset, some (wordAt content (offset + 8)),
        some (wordAt content (offset + 16))⟩

/-- The index entry at a position. -/
def entry (reader : LogReader) (position : Nat) : Except LogError IndexEntry :=
  if reader.entries ≤ position then .error (.notFound position)
  else
    match reader.index with
    | .directory => .error (.file .isDirectory)
    | .file content =>
        let width := reader.settings.layout.width
        if position * width + width ≤ content.size then
          .ok (entryAt reader.settings.layout content (position * width))
        else .error (.truncated position .endOfData)

/-- The payload of a given length that starts at an offset, if it is not too long and lies within
the data. -/
def payloadAt (reader : LogReader) (content : Array UInt8) (position length start : Nat) :
    Except LogError Bytes :=
  if reader.settings.maxRecordBytes.toNat < length then
    .error (.undecodable position (.tooLong length reader.settings.maxRecordBytes.toNat))
  else if reader.dataLength < start + length then
    .error (.truncated position (.runsPastEnd length))
  else if content.size < start + length then .error (.truncated position .endOfData)
  else .ok (content.extract start (start + length)).toList

/-- The payload that an index entry points to, behind its length, which has to be that of the entry
if it gives one. -/
def payload (reader : LogReader) (position : Nat) (entry : IndexEntry) : Except LogError Bytes :=
  if reader.dataLength ≤ entry.offset then
    .error (.truncated position (.startsPastEnd entry.offset reader.dataLength))
  else
    match reader.data with
    | .directory => .error (.file .isDirectory)
    | .file content =>
        match Length.read content entry.offset with
        | .cutOff => .error (.truncated position .endOfData)
        | .overflow => .error (.undecodable position .lengthOverflow)
        | .length length start =>
            match entry.length.filter (· ≠ length) with
            | some stored => .error (.undecodable position (.lengthMismatch stored length))
            | none => reader.payloadAt content position length start

/-- The record that an index entry points to. -/
def recordAt (reader : LogReader) (position : Nat) (entry : IndexEntry) :
    Except LogError Record := do
  let bytes ← reader.payload position entry
  match Record.decode bytes with
  | .ok record => return record
  | .error fault => throw (.undecodable position (.badRecord fault.message))

/-- The record at a position. -/
def read (reader : LogReader) (position : Nat) : Except LogError Record := do
  reader.recordAt position (← reader.entry position)

/-- The record at a position, with the offset where it starts. -/
def locate (reader : LogReader) (position : Nat) : Except LogError LogRecord := do
  let entry ← reader.entry position
  return ⟨position, entry.offset, ← reader.recordAt position entry⟩

theorem readOfLocate (reader : LogReader) (position : Nat) :
    reader.read position = (reader.locate position).map LogRecord.record := by
  unfold read locate
  cases reader.entry position with
  | error fault => rfl
  | ok entry =>
      change reader.recordAt position entry =
        (reader.recordAt position entry >>= fun record =>
          .ok ⟨position, entry.offset, record⟩).map LogRecord.record
      cases reader.recordAt position entry <;> rfl

end LogReader

end Backfill
