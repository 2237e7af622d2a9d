/-
This file holds the records that are moved into a replica.
-/

import Backfill.Text.Hex

namespace Backfill

/-- What a record describes. -/
inductive RecordKind
  | block
  | transaction
  | entity (encoderType : UInt16)
deriving DecidableEq, Repr

/-- The label of a kind in the replica. -/
def RecordKind.label : RecordKind → String
  | .block => "block"
  | .transaction => "transaction"
  | .entity _ => "entity"

/-- The encoder type tells entities apart and is zero for all else. -/
def RecordKind.encoderType : RecordKind → UInt16
  | .entity encoderType => encoderType
  | _ => 0

/-- The text of a kind. -/
def RecordKind.text : RecordKind → String
  | .entity encoderType => s!"entity:{encoderType.toNat}"
  | kind => kind.label

/-- How a record is applied. -/
inductive Operation
  | insert
  | upsert
  | delete
deriving DecidableEq, Repr

/-- The text of an operation. -/
def Operation.text : Operation → String
  | .insert => "insert"
  | .upsert => "upsert"
  | .delete => "delete"

/-- A byte string. -/
abbrev Bytes := List UInt8

/-- The header of a block with its transactions. -/
structure BlockPayload where
  version : UInt32
  previousHash : Bytes
  merkleRoot : Bytes
  timestamp : Int64
  height : UInt64
  nonce : UInt64
  extraNonce : UInt64
  proposedInView : UInt64
  transactions : List Bytes
deriving DecidableEq, Repr

/-- A header in which everything is zero or empty. -/
def BlockPayload.blank : BlockPayload :=
  ⟨0, [], [], 0, 0, 0, 0, 0, []⟩

/-- One change of state at one height, with the identity that its source gives it as the key. -/
structure Record where
  kind : RecordKind
  operation : Operation
  key : Bytes
  payload : Bytes
  ancestral : Option Bytes
  flushId : String
  height : UInt64
  block : Option BlockPayload
deriving DecidableEq, Repr

namespace Record

/-- The upsert of a block with a given identity. -/
def ofBlock (key : Bytes) (block : BlockPayload) : Record :=
  ⟨.block, .upsert, key, [], none, "", block.height, some block⟩

/-- Whether the record describes a block. -/
def isBlock (record : Record) : Bool :=
  record.kind = .block

/-- The identity as hexadecimal digits. -/
def keyText (record : Record) : String :=
  Text.hex record.key

end Record

end Backfill
