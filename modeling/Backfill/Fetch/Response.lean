/-
This file turns the answer of a node into a block record.
-/

import Backfill.Fetch.Fault
import Backfill.Fetch.Status
import Backfill.Record.Json

namespace Backfill

/-- The header in the answer of a node; texts are not yet looked into. -/
structure HeaderAnswer where
  blockHash : String
  version : UInt32
  previousHash : String
  merkleRoot : String
  timestamp : Int64
  height : UInt64
  nonce : UInt64
  extraNonce : UInt64
  proposedInView : UInt64
deriving DecidableEq, Repr

namespace HeaderAnswer

/-- A header before its required fields are read. -/
structure Draft where
  blockHash : Option String
  version : UInt32
  previousHash : String
  merkleRoot : String
  timestamp : Int64
  height : Option UInt64
  nonce : UInt64
  extraNonce : UInt64
  proposedInView : UInt64

/-- A header needs its hash and its height. -/
def shape : Shape Draft HeaderAnswer where
  title := "struct HeaderResponse"
  fields := [
    .required "BlockHashHex" Datum.readText fun value draft =>
      { draft with blockHash := some value },
    .optional "Version" Datum.readWord32 fun value draft => { draft with version := value },
    .optional "PrevBlockHashHex" Datum.readText fun value draft =>
      { draft with previousHash := value },
    .optional "TransactionMerkleRootHex" Datum.readText fun value draft =>
      { draft with merkleRoot := value },
    .optional "TstampNanoSecs" Datum.readSigned64 fun value draft =>
      { draft with timestamp := value },
    .required "Height" Datum.readWord64 fun value draft => { draft with height := some value },
    .optional "Nonce" Datum.readWord64 fun value draft => { draft with nonce := value },
    .optional "ExtraNonce" Datum.readWord64 fun value draft => { draft with extraNonce := value },
    .optional "ProposedInView" Datum.readWord64 fun value draft =>
      { draft with proposedInView := value }]
  blank := ⟨none, 0, "", "", 0, none, 0, 0, 0⟩
  finish draft := do
    return {
      blockHash := ← requireField "BlockHashHex" draft.blockHash
      version := draft.version
      previousHash := draft.previousHash
      merkleRoot := draft.merkleRoot
      timestamp := draft.timestamp
      height := ← requireField "Height" draft.height
      nonce := draft.nonce
      extraNonce := draft.extraNonce
      proposedInView := draft.proposedInView }

end HeaderAnswer

/-- A transaction in the answer of a node is the text of its bytes. -/
def transactionShape : Shape (Option String) String where
  title := "struct TransactionResponse"
  fields := [.required "RawTransactionHex" Datum.readText fun value _ => some value]
  blank := none
  finish draft := requireField "RawTransactionHex" draft

/-- The answer of a node. -/
structure NodeAnswer where
  header : Option HeaderAnswer
  transactions : Option (List String)
  error : String
deriving DecidableEq, Repr

/-- Everything in an answer may be absent. -/
def NodeAnswer.shape : Shape NodeAnswer NodeAnswer where
  title := "struct BlockResponse"
  fields := [
    .optional "Header" (Datum.readOption HeaderAnswer.shape.read) fun value draft =>
      { draft with header := value },
    .optional "Transactions" (Datum.readOption (Datum.readList transactionShape.read))
      fun value draft => { draft with transactions := value },
    .optional "Error" Datum.readText fun value draft => { draft with error := value }]
  blank := ⟨none, none, ""⟩
  finish := .ok

namespace NodeAnswer

/-- The length of a hash in bytes. -/
def hashLength : Nat := 32

/-- The most bytes of a body that a failure quotes. -/
def quotedBytes : Nat := 200

/-- The bytes of a hash; some hashes may be empty. -/
def readHash (field : String) (mayBeEmpty : Bool) (text : String) : Except String Bytes :=
  if text.isEmpty && mayBeEmpty then .ok []
  else
    match Text.readHex text with
    | .error fault => .error s!"{field} is not hex: {fault.message}"
    | .ok bytes =>
        if bytes.length = hashLength then .ok bytes
        else .error s!"{field} has {bytes.length} bytes, expected {hashLength}"

/-- The bytes of transactions numbered from `index` on. -/
def readTransactions : Nat → List String → Except String (List Bytes)
  | _, [] => .ok []
  | index, text :: rest =>
      match Text.readHex text with
      | .error fault => .error s!"transaction {index} is not hex: {fault.message}"
      | .ok bytes => (readTransactions (index + 1) rest).map (bytes :: ·)

/-- The block that an answer to the request for a height holds. -/
def toRecord (answer : NodeAnswer) (height : Nat) : Except String Record := do
  if !answer.error.isEmpty then throw s!"node error: {answer.error}"
  let some header := answer.header | throw "response has no header"
  if header.height.toNat ≠ height then
    throw s!"node returned height {header.height.toNat} for request {height}"
  let blockHash ← readHash "BlockHashHex" false header.blockHash
  let previousHash ← readHash "PrevBlockHashHex" true header.previousHash
  let merkleRoot ← readHash "TransactionMerkleRootHex" true header.merkleRoot
  let transactions ← readTransactions 0 (answer.transactions.getD [])
  return .ofBlock blockHash {
    version := header.version
    previousHash := previousHash
    merkleRoot := merkleRoot
    timestamp := header.timestamp
    height := header.height
    nonce := header.nonce
    extraNonce := header.extraNonce
    proposedInView := header.proposedInView
    transactions := transactions }

end NodeAnswer

/-- The record that the answer to the request for a height holds, or a failure of which the status
alone decides whether trying again may help. -/
def readResponse (height : Nat) (status : Status) (body : Bytes) : Except FetchError Record :=
  if status.isTransient then .error ⟨true, height, s!"HTTP {status.text}"⟩
  else if !status.isSuccess then
    let quoted := String.ofList (Text.Utf8.decodeLossy (body.take NodeAnswer.quotedBytes))
    .error (.permanent height s!"HTTP {status.text}: {quoted}")
  else
    match Json.read NodeAnswer.shape.read body with
    | .error fault => .error (.permanent height s!"malformed response: {fault.message}")
    | .ok answer => (answer.toRecord height).mapError (.permanent height)

end Backfill
