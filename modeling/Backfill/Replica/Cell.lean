/-
This file writes the rows of a replica as rows of cells and reads them back.
-/

import Backfill.Record.Json
import Backfill.Replica.Tables

namespace Backfill

/-- A cell of a row. -/
inductive Cell
  | null
  | integer (value : Int)
  | text (value : String)
  | blob (value : Bytes)
deriving DecidableEq, Repr

namespace Cell

/-- The value of a cell; bytes are marked as such. -/
def toJson : Cell → Json.Value
  | .null => .null
  | .integer value => .integer value
  | .text value => .text value
  | .blob value => .table [("blob", .text (Text.hex value))]

/-- A cell is null, a whole number, a text, or a table with bytes. -/
def read : DatumReader Cell := fun medium datum =>
  match datum with
  | .null => .ok .null
  | .number (.integer value) => .ok (.integer value)
  | .text (some value) => .ok (.text value)
  | .table [(some "blob", bytes)] .closed => (Datum.readHex medium bytes).map .blob
  | other => .error (other.mismatch "a cell")

/-- The cell of bytes that may be absent. -/
def optional : Option Bytes → Cell
  | none => .null
  | some value => .blob value

end Cell

namespace BlockRow

/-- The cells of a block row, in the order of the columns. -/
def cells (hash : String) (row : BlockRow) : List Cell :=
  [.text hash, .text row.previousHash, .text row.merkleRoot, .text row.stamp,
    .integer row.timestamp, .integer row.height, .text row.nonce, .text row.extraNonce,
    .integer row.version, .integer row.proposedInView, .integer row.transactionCount,
    .blob row.sourceKey]

/-- The block row that cells make. -/
def ofCells? : List Cell → Option (String × BlockRow)
  | [.text hash, .text previousHash, .text merkleRoot, .text stamp, .integer timestamp,
      .integer height, .text nonce, .text extraNonce, .integer version, .integer proposedInView,
      .integer transactionCount, .blob sourceKey] =>
      some (hash, ⟨previousHash, merkleRoot, stamp, timestamp, height, nonce, extraNonce, version,
        proposedInView, transactionCount, sourceKey⟩)
  | _ => none

theorem ofCellsCells (hash : String) (row : BlockRow) : ofCells? (row.cells hash) = some (hash, row) :=
  rfl

end BlockRow

namespace TransactionKey

/-- The cells of a transaction. -/
def cells (key : TransactionKey) (raw : Bytes) : List Cell :=
  [.text key.hash, .integer key.index, .blob raw]

/-- The transaction that cells make. -/
def ofCells? : List Cell → Option (TransactionKey × Bytes)
  | [.text hash, .integer (.ofNat index), .blob raw] => some (⟨hash, index⟩, raw)
  | _ => none

theorem ofCellsCells (key : TransactionKey) (raw : Bytes) :
    ofCells? (key.cells raw) = some (key, raw) :=
  rfl

end TransactionKey

namespace ChangeKey

/-- The cells of a change. -/
def cells (key : ChangeKey) (row : ChangeRow) : List Cell :=
  [.text key.label, .integer key.encoderType, .blob key.key, .integer row.height,
    .text row.flushId, .blob row.payload, .optional row.ancestral]

/-- The change that cells make. -/
def ofCells? : List Cell → Option (ChangeKey × ChangeRow)
  | [.text label, .integer (.ofNat encoderType), .blob key, .integer height, .text flushId,
      .blob payload, .null] => some (⟨label, encoderType, key⟩, ⟨height, flushId, payload, none⟩)
  | [.text label, .integer (.ofNat encoderType), .blob key, .integer height, .text flushId,
      .blob payload, .blob ancestral] =>
      some (⟨label, encoderType, key⟩, ⟨height, flushId, payload, some ancestral⟩)
  | _ => none

theorem ofCellsCells (key : ChangeKey) (row : ChangeRow) :
    ofCells? (key.cells row) = some (key, row) := by
  obtain ⟨height, flushId, payload, ancestral⟩ := row
  cases ancestral <;> rfl

end ChangeKey

namespace Tables

/-- The value of a table of rows. -/
def rowsToJson (rows : List (List Cell)) : Json.Value :=
  .list (rows.map fun row => .list (row.map Cell.toJson))

/-- The value of the tables; the rows of each are in the order of their identities. -/
def toJson (tables : Tables) : Json.Value :=
  .table [
    ("block", rowsToJson (tables.blocks.toList.map fun (hash, row) => row.cells hash)),
    ("block_transaction",
      rowsToJson (tables.transactions.toList.map fun (key, raw) => key.cells raw)),
    ("state_change", rowsToJson (tables.changes.toList.map fun (key, row) => key.cells row))]

/-- Rows that make entries of a table. -/
def readRows {α : Type} (ofCells? : List Cell → Option α) : DatumReader (List α) :=
  fun medium datum => do
    let rows ← Datum.readList (Datum.readList Cell.read) medium datum
    match rows.mapM ofCells? with
    | some entries => return entries
    | none => throw (.rejected "a row does not fit its table")

/-- Tables are a structure of three lists of rows. -/
def shape : Shape Tables Tables where
  title := "replica"
  fields := [
    .optional "block" (readRows BlockRow.ofCells?) fun entries draft =>
      { draft with blocks := .ofList entries },
    .optional "block_transaction" (readRows TransactionKey.ofCells?) fun entries draft =>
      { draft with transactions := .ofList entries },
    .optional "state_change" (readRows ChangeKey.ofCells?) fun entries draft =>
      { draft with changes := .ofList entries }]
  blank := empty
  finish := .ok

/-- The content of a file that holds the tables. -/
def toFile (tables : Tables) : Array UInt8 :=
  (Text.Utf8.encode (tables.toJson.compact ++ "\n")).toArray

/-- The tables that the content of a file holds; an empty file holds none. -/
def ofFile? (content : Array UInt8) : Option Tables :=
  if content.isEmpty then some empty else (Json.read shape.read content.toList).toOption

end Tables

end Backfill
