/-
This file reads and writes records as JSON documents.
-/

import Backfill.Json.Document
import Backfill.Json.Value
import Backfill.Record.Basic

namespace Backfill

/-- A byte string written in hexadecimal digits. -/
def Datum.hexBytes (written : String) : Except DatumFault Bytes :=
  (Text.readHex written).mapError fun fault => .rejected fault.message

/-- A text that holds a byte string. -/
def Datum.readHex : DatumReader Bytes := fun medium datum => do
  hexBytes (← readText medium datum)

/-- A text or null that may hold a byte string. -/
def Datum.readHexOption : DatumReader (Option Bytes) := fun medium datum => do
  match ← readOption readText medium datum with
  | none => return none
  | some written => return some (← hexBytes written)

/-- A list of texts that each hold a byte string; they are looked into after the whole list is
read. -/
def Datum.readHexList : DatumReader (List Bytes) := fun medium datum => do
  (← readList readText medium datum).mapM hexBytes

/-- A block payload is a structure whose fields all have defaults. -/
def BlockPayload.shape : Shape BlockPayload BlockPayload where
  title := "struct BlockPayload"
  fields := [
    .optional "version" Datum.readWord32 fun value draft => { draft with version := value },
    .optional "prev_block_hash" Datum.readHex fun value draft =>
      { draft with previousHash := value },
    .optional "txn_merkle_root" Datum.readHex fun value draft => { draft with merkleRoot := value },
    .optional "timestamp_nanos" Datum.readSigned64 fun value draft =>
      { draft with timestamp := value },
    .optional "height" Datum.readWord64 fun value draft => { draft with height := value },
    .optional "nonce" Datum.readWord64 fun value draft => { draft with nonce := value },
    .optional "extra_nonce" Datum.readWord64 fun value draft => { draft with extraNonce := value },
    .optional "proposed_in_view" Datum.readWord64 fun value draft =>
      { draft with proposedInView := value },
    .optional "transactions" Datum.readHexList fun value draft =>
      { draft with transactions := value }]
  blank := .blank
  finish := .ok

/-- The value of a block payload. -/
def BlockPayload.toJson (block : BlockPayload) : Json.Value :=
  .table [
    ("version", .natural block.version.toNat),
    ("prev_block_hash", .text (Text.hex block.previousHash)),
    ("txn_merkle_root", .text (Text.hex block.merkleRoot)),
    ("timestamp_nanos", .integer block.timestamp.toInt),
    ("height", .natural block.height.toNat),
    ("nonce", .natural block.nonce.toNat),
    ("extra_nonce", .natural block.extraNonce.toNat),
    ("proposed_in_view", .natural block.proposedInView.toNat),
    ("transactions", .list (block.transactions.map fun raw => .text (Text.hex raw)))]

namespace RecordKind

/-- The tag of a kind. -/
inductive Tag
  | block
  | transaction
  | entity

/-- The names of the tags. -/
def tags : List (String × Tag) :=
  [("block", .block), ("transaction", .transaction), ("entity", .entity)]

/-- A tag is one of the known names. -/
def readTag : Datum → Except DatumFault Tag
  | .text (some name) => Datum.readName tags name
  | other => .error (other.mismatch "variant identifier")

/-- What a tag leaves to be read of an entity. -/
def entityShape : Shape (Option UInt16) RecordKind where
  title := "struct variant RecordKind::Entity"
  fields := [.required "encoder_type" Datum.readWord16 fun value _ => some value]
  blank := none
  finish draft := (requireField "encoder_type" draft).map .entity

/-- The members other than the tag, which are kept aside until the table ends, and the tag. -/
def readTagged : Option Tag → List (Option String × Datum) → List (Option String × Datum) →
    Except DatumFault (Option Tag × List (Option String × Datum))
  | tag, others, [] => .ok (tag, others.reverse)
  | _, _, (none, _) :: _ => .error .malformed
  | tag, others, (some name, value) :: rest =>
      if name = "kind" then
        match tag with
        | some _ => .error (.duplicateField "kind")
        | none => do readTagged (some (← readTag value)) others rest
      else if value.isKept 3 then readTagged tag ((some name, value) :: others) rest
      else .error .malformed

/-- Items that the tag leaves unread are refused. -/
def refuseItems (expected : Nat) (total : Nat) : Except DatumFault Unit :=
  if total ≤ expected then .ok ()
  else
    let noun := if expected = 1 then "element" else "elements"
    .error (.wrongLength total s!"{expected} {noun} in sequence")

/-- The kind that a tag and the remaining items of a list make. -/
def ofItems (medium : Medium) (items : List Datum) : Tag → Except DatumFault RecordKind
  | .block => (refuseItems 0 items.length).map fun _ => .block
  | .transaction => (refuseItems 0 items.length).map fun _ => .transaction
  | .entity =>
      match items with
      | [] => .error (.wrongLength 0 entityShape.lengthText)
      | first :: _ => do
          let encoderType ← Datum.readWord16 medium first
          refuseItems 1 items.length
          return .entity encoderType

/-- The kind that a tag and the remaining members of a table make. -/
def ofMembers (medium : Medium) (members : List (Option String × Datum)) :
    Tag → Except DatumFault RecordKind
  | .block => .ok .block
  | .transaction => .ok .transaction
  | .entity => entityShape.read medium (.table members .closed)

/-- A kind is a table with a tag among its members, or a list that starts with the tag. -/
def read : DatumReader RecordKind := fun medium datum =>
  match datum with
  | .table members ending => do
      let (tag, others) ← readTagged none [] members
      if !ending.isClosed then throw .malformed
      ofMembers medium others (← requireField "kind" tag)
  | .list items ending =>
      match items with
      | [] => .error (if ending.isClosed then .missingField "kind" else .malformed)
      | first :: rest => do
          let tag ← readTag first
          if !ending.isClosed || !rest.all (Datum.isKept 3) then throw .malformed
          ofItems medium rest tag
  | other => .error (other.mismatch "internally tagged enum RecordKind")

/-- The value of a kind. -/
def toJson : RecordKind → Json.Value
  | .entity encoderType =>
      .table [("kind", .text "entity"), ("encoder_type", .natural encoderType.toNat)]
  | kind => .table [("kind", .text kind.label)]

end RecordKind

/-- The names of the operations. -/
def Operation.names : List (String × Operation) :=
  [("insert", .insert), ("upsert", .upsert), ("delete", .delete)]

namespace Record

/-- A record before all its required fields are read. -/
structure Draft where
  kind : Option RecordKind
  operation : Option Operation
  key : Option Bytes
  payload : Bytes
  ancestral : Option Bytes
  flushId : String
  height : Option UInt64
  block : Option BlockPayload

/-- A record is a structure of eight fields. -/
def shape : Shape Draft Record where
  title := "struct StateChangeRecord"
  fields := [
    .required "record_kind" RecordKind.read fun value draft => { draft with kind := some value },
    .required "operation_kind" (Datum.readVariant Operation.names) fun value draft =>
      { draft with operation := some value },
    .required "key_bytes" Datum.readHex fun value draft => { draft with key := some value },
    .optional "payload" Datum.readHex fun value draft => { draft with payload := value },
    .optional "ancestral_payload" Datum.readHexOption fun value draft =>
      { draft with ancestral := value },
    .optional "flush_id" Datum.readText fun value draft => { draft with flushId := value },
    .required "height" Datum.readWord64 fun value draft => { draft with height := some value },
    .optional "block" (Datum.readOption BlockPayload.shape.read) fun value draft =>
      { draft with block := value }]
  blank := ⟨none, none, none, [], none, "", none, none⟩
  finish draft := do
    return {
      kind := ← requireField "record_kind" draft.kind
      operation := ← requireField "operation_kind" draft.operation
      key := ← requireField "key_bytes" draft.key
      payload := draft.payload
      ancestral := draft.ancestral
      flushId := draft.flushId
      height := ← requireField "height" draft.height
      block := draft.block }

/-- The value of a record; what is absent is left out. -/
def toJson (record : Record) : Json.Value :=
  .table ([
    ("record_kind", record.kind.toJson),
    ("operation_kind", .text record.operation.text),
    ("key_bytes", .text (Text.hex record.key)),
    ("payload", .text (Text.hex record.payload))] ++
    (record.ancestral.map fun bytes => ("ancestral_payload", Json.Value.text (Text.hex bytes))).toList ++ [
    ("flush_id", .text record.flushId),
    ("height", .natural record.height.toNat)] ++
    (record.block.map fun block => ("block", block.toJson)).toList)

/-- The text of a record. -/
def encode (record : Record) : String :=
  record.toJson.compact

/-- The record that a document holds. -/
def decode (bytes : Bytes) : Except DatumFault Record :=
  Json.read shape.read bytes

end Record

end Backfill
