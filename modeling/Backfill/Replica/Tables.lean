/-
This file holds the tables of a replica and applies records to them.
-/

import Backfill.Height.Gaps
import Backfill.Replica.Row

namespace Backfill

/-- A replica has a table of blocks by their hashes, a table of their transactions, and a table of
other changes of state. -/
structure Tables where
  blocks : Std.ExtTreeMap String BlockRow
  transactions : Std.ExtTreeMap TransactionKey Bytes
  changes : Std.ExtTreeMap ChangeKey ChangeRow

namespace Tables

/-- Tables without rows. -/
def empty : Tables :=
  ⟨∅, ∅, ∅⟩

/-- The transactions without those of a block. -/
def dropTransactions (transactions : Std.ExtTreeMap TransactionKey Bytes) (hash : String) :
    Std.ExtTreeMap TransactionKey Bytes :=
  transactions.filter fun key _ => key.hash ≠ hash

/-- The transactions with those of a list put at the places from `index` on; what is at a place
already stays there. -/
def addTransactions (hash : String) :
    Nat → List Bytes → Std.ExtTreeMap TransactionKey Bytes → Std.ExtTreeMap TransactionKey Bytes
  | _, [], transactions => transactions
  | index, raw :: rest, transactions =>
      addTransactions hash (index + 1) rest (transactions.insertIfNew ⟨hash, index⟩ raw)

/-- The tables with a block row, which replaces the row and the transactions of the same hash only
with `update`. -/
def putBlock (tables : Tables) (update : Bool) (hash : String) (row : BlockRow)
    (transactions : List Bytes) : Tables :=
  { tables with
    blocks :=
      if update then tables.blocks.insert hash row else tables.blocks.insertIfNew hash row
    transactions := addTransactions hash 0 transactions
      (if update then dropTransactions tables.transactions hash else tables.transactions) }

/-- The tables without a block and its transactions. -/
def dropBlock (tables : Tables) (hash : String) : Tables :=
  { tables with
    blocks := tables.blocks.erase hash
    transactions := dropTransactions tables.transactions hash }

/-- The tables with a change, which replaces the row of the same identity only with `update`. -/
def putChange (tables : Tables) (update : Bool) (key : ChangeKey) (row : ChangeRow) : Tables :=
  { tables with
    changes :=
      if update then tables.changes.insert key row else tables.changes.insertIfNew key row }

/-- The tables without a change. -/
def dropChange (tables : Tables) (key : ChangeKey) : Tables :=
  { tables with changes := tables.changes.erase key }

/-- The tables after one record, which can fail only if it is stored. -/
def applyRecord (update : Bool) (tables : Tables) (record : Record) :
    Except ReplicaError Tables :=
  match record.isBlock, record.operation with
  | true, .delete => .ok (tables.dropBlock record.keyText)
  | true, _ =>
      (BlockRow.ofRecord record).map fun row =>
        tables.putBlock update record.keyText row record.header.transactions
  | false, .delete => .ok (tables.dropChange (.ofRecord record))
  | false, _ => (ChangeRow.ofRecord record).map (tables.putChange update (.ofRecord record))

/-- The tables after records in order; the first one that fails decides. -/
def applyRecords (update : Bool) (tables : Tables) (records : List Record) :
    Except ReplicaError Tables :=
  records.foldlM (applyRecord update) tables

/-- The heights of the blocks in ascending order, each once. -/
def signedHeights (tables : Tables) : List Int :=
  dropRepeats ((tables.blocks.toList.map fun entry => entry.2.height).mergeSort (· ≤ ·))

/-- The block rows of a height with their hashes, in the order of the hashes. -/
def blocksAt (tables : Tables) (height : Int) : List (String × BlockRow) :=
  tables.blocks.toList.filter fun entry => entry.2.height = height

/-- The transactions of a block in the order of their places. -/
def transactionsOf (tables : Tables) (hash : String) : List Bytes :=
  (tables.transactions.toList.filter fun entry => entry.1.hash = hash).map Prod.snd

/-- The bounds of the runs of heights that lie between neighbours of a list. -/
def boundsBetween : List Int → List (Int × Int)
  | lower :: upper :: rest =>
      (if lower + 1 < upper then [(lower + 1, upper - 1)] else []) ++ boundsBetween (upper :: rest)
  | _ => []

/-- A range between two bounds that columns hold. -/
def rangeOfBounds (bounds : Int × Int) : Except ReplicaError HeightRange := do
  let start ← naturalColumn "gap_start" bounds.1
  let stop ← naturalColumn "gap_end" bounds.2
  (HeightRange.ofBounds start stop).mapError fun pair => .gapOrder pair.message

/-- The ranges of heights without a block between heights with one. -/
def interiorGaps (tables : Tables) : Except ReplicaError (List HeightRange) :=
  (boundsBetween tables.signedHeights).mapM rangeOfBounds

/-- The heights that have a block, ascending. -/
def populatedHeights (tables : Tables) : Except ReplicaError (List Nat) :=
  tables.signedHeights.mapM (naturalColumn "height")

/-- The lowest height that has a block. -/
def lowest (tables : Tables) : Except ReplicaError (Option Nat) :=
  tables.signedHeights.head?.mapM (naturalColumn "height")

/-- The highest height that has a block. -/
def highest (tables : Tables) : Except ReplicaError (Option Nat) :=
  tables.signedHeights.getLast?.mapM (naturalColumn "height")

/-- Whether a height has a block. -/
def holds (tables : Tables) (height : UInt64) : Except ReplicaError Bool := do
  let column ← signedColumn "height" height
  return !(tables.blocksAt column).isEmpty

/-- The hash of the block at a height; of several blocks it is the least one. -/
def hashAt (tables : Tables) (height : UInt64) : Except ReplicaError (Option String) := do
  let column ← signedColumn "height" height
  return (tables.blocksAt column).head?.map Prod.fst

/-- The header of the block at a height with its transactions. -/
def blockAt (tables : Tables) (height : UInt64) : Except ReplicaError (Option BlockPayload) := do
  let column ← signedColumn "height" height
  match (tables.blocksAt column).head? with
  | none => return none
  | some (hash, row) => return some (← row.toPayload (tables.transactionsOf hash))

end Tables

end Backfill
