/-
This file holds the rows of a replica and the keys that identify them.
-/

import Backfill.Json.Value
import Backfill.Record.Basic
import Backfill.Replica.Fault
import Backfill.Text.Decimal
import Backfill.Time.Stamp
import Backfill.Word
import Std.Data.ExtTreeMap

namespace Backfill

/-- A row of the table of blocks without the hash that identifies it, as anyone may have written it.
-/
structure BlockRow where
  previousHash : String
  merkleRoot : String
  stamp : String
  timestamp : Int
  height : Int
  nonce : String
  extraNonce : String
  version : Int
  proposedInView : Int
  transactionCount : Int
  sourceKey : Bytes
deriving DecidableEq, Repr

/-- A transaction is identified by the hash of its block and its place in it. -/
structure TransactionKey where
  hash : String
  index : Nat
deriving DecidableEq, Repr

/-- Transactions are ordered by the hashes of their blocks, then by their places. -/
instance : Ord TransactionKey where
  compare := compareLex (compareOn TransactionKey.hash) (compareOn TransactionKey.index)

instance : Std.TransOrd TransactionKey :=
  inferInstanceAs (Std.TransCmp
    (compareLex (compareOn TransactionKey.hash) (compareOn TransactionKey.index)))

instance : Std.LawfulEqOrd TransactionKey where
  eq_of_compare {first second} equal := by
    have both := compareLex_eq_eq.mp equal
    have hash := Std.LawfulEqOrd.eq_of_compare both.1
    have index := Std.LawfulEqOrd.eq_of_compare both.2
    cases first
    cases second
    simp_all

/-- A change of state is identified by its kind, its encoder type and its key. -/
structure ChangeKey where
  label : String
  encoderType : Nat
  key : Bytes
deriving DecidableEq, Repr

namespace ChangeKey

/-- The encoder type and the key, which are compared after the kind. -/
def compareRest : ChangeKey → ChangeKey → Ordering :=
  compareLex (compareOn ChangeKey.encoderType) (compareOn ChangeKey.key)

/-- The identity of the change that a record describes. -/
def ofRecord (record : Record) : ChangeKey :=
  ⟨record.kind.label, record.kind.encoderType.toNat, record.key⟩

end ChangeKey

/-- Changes are ordered by kind, then by encoder type, then by key. -/
instance : Ord ChangeKey where
  compare := compareLex (compareOn ChangeKey.label) ChangeKey.compareRest

instance : Std.TransOrd ChangeKey :=
  inferInstanceAs (Std.TransCmp
    (compareLex (compareOn ChangeKey.label)
      (compareLex (compareOn ChangeKey.encoderType) (compareOn ChangeKey.key))))

instance : Std.LawfulEqOrd ChangeKey where
  eq_of_compare {first second} equal := by
    have both := compareLex_eq_eq.mp equal
    have rest := compareLex_eq_eq.mp both.2
    have label := Std.LawfulEqOrd.eq_of_compare both.1
    have encoderType := Std.LawfulEqOrd.eq_of_compare rest.1
    have key := Std.LawfulEqOrd.eq_of_compare rest.2
    cases first
    cases second
    simp_all

/-- A row of the table of changes, without its identity. -/
structure ChangeRow where
  height : Int
  flushId : String
  payload : Bytes
  ancestral : Option Bytes
deriving DecidableEq, Repr

/-- A word as a signed number of a column, if it fits. -/
def signedColumn (field : String) (value : UInt64) : Except ReplicaError Int :=
  if value.toNat ≤ maxSigned then .ok value.toNat else .error (.integerOverflow field)

/-- A signed number of a column as a natural number, if it is not negative. -/
def naturalColumn (field : String) (value : Int) : Except ReplicaError Nat :=
  if 0 ≤ value then .ok value.toNat else .error (.integerOverflow field)

/-- A word that a column holds in decimal. -/
def decimalColumn (field text : String) : Except ReplicaError UInt64 :=
  match Text.natOf? maxWord text with
  | some value => .ok (UInt64.ofNat value)
  | none => .error (.invalidValue s!"{field}: {Text.quote text}")

/-- A byte string that a column holds in hexadecimal. -/
def hexColumn (field text : String) : Except ReplicaError Bytes :=
  (Text.readHex text).mapError fun fault => .invalidValue s!"{field}: {fault.message}"

namespace Record

/-- The header that a block record stores; without one of its own it is blank but for the
height. -/
def header (record : Record) : BlockPayload :=
  record.block.getD { BlockPayload.blank with height := record.height }

end Record

namespace BlockRow

/-- The row that a block record stores, if its height and its view fit their columns. -/
def ofRecord (record : Record) : Except ReplicaError BlockRow := do
  let block := record.header
  let height ← signedColumn "height" record.height
  let proposedInView ← signedColumn "proposed_in_view" block.proposedInView
  return {
    previousHash := Text.hex block.previousHash
    merkleRoot := Text.hex block.merkleRoot
    stamp := Time.stampText block.timestamp.toInt
    timestamp := block.timestamp.toInt
    height
    nonce := toString block.nonce.toNat
    extraNonce := toString block.extraNonce.toNat
    version := block.version.toNat
    proposedInView
    transactionCount := block.transactions.length
    sourceKey := record.key }

/-- The header that a row and its transactions hold. -/
def toPayload (row : BlockRow) (transactions : List Bytes) : Except ReplicaError BlockPayload := do
  if row.version < 0 ∨ Nat.pow 2 32 ≤ row.version then throw (.integerOverflow "block_version")
  let previousHash ← hexColumn "prev_block_hash" row.previousHash
  let merkleRoot ← hexColumn "txn_merkle_root" row.merkleRoot
  let height ← naturalColumn "height" row.height
  let nonce ← decimalColumn "nonce" row.nonce
  let extraNonce ← decimalColumn "extra_nonce" row.extraNonce
  let proposedInView ← naturalColumn "proposed_in_view" row.proposedInView
  return {
    version := UInt32.ofNat row.version.toNat
    previousHash, merkleRoot
    timestamp := Int64.ofInt row.timestamp
    height := UInt64.ofNat height
    nonce, extraNonce
    proposedInView := UInt64.ofNat proposedInView
    transactions }

end BlockRow

/-- The row that a record of another kind stores, if its height fits its column. -/
def ChangeRow.ofRecord (record : Record) : Except ReplicaError ChangeRow := do
  let height ← signedColumn "height" record.height
  return ⟨height, record.flushId, record.payload, record.ancestral⟩

end Backfill
