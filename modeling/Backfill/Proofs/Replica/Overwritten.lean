/-
This file shows what a batch leaves that may replace what is there: of each identity that the batch is
about exactly what the last record of it says, and of all others what was there before.
-/

import Backfill.Proofs.Replica.Readable
import Mathlib.Data.String.Basic

namespace Backfill

/-- The last of some records that is about a thing. -/
def LastOf (about : Record → Prop) (records : List Record) (last : Record) : Prop :=
  ∃ before after, records = before ++ last :: after ∧ about last ∧
    ∀ record ∈ after, ¬about record

namespace Record

/-- The record is about the block with a hash. -/
def IsOf (hash : String) (record : Record) : Prop :=
  record.isBlock = true ∧ record.keyText = hash

instance (hash : String) (record : Record) : Decidable (record.IsOf hash) :=
  inferInstanceAs (Decidable (_ ∧ _))

/-- The record is about the change with an identity. -/
def Changes (key : ChangeKey) (record : Record) : Prop :=
  record.isBlock = false ∧ ChangeKey.ofRecord record = key

instance (key : ChangeKey) (record : Record) : Decidable (record.Changes key) :=
  inferInstanceAs (Decidable (_ ∧ _))

/-- The row of a block record whose numbers fit their columns. -/
def blockRow (record : Record) : BlockRow where
  previousHash := Text.hex record.header.previousHash
  merkleRoot := Text.hex record.header.merkleRoot
  stamp := Time.stampText record.header.timestamp.toInt
  timestamp := record.header.timestamp.toInt
  height := record.height.toNat
  nonce := toString record.header.nonce.toNat
  extraNonce := toString record.header.extraNonce.toNat
  version := record.header.version.toNat
  proposedInView := record.header.proposedInView.toNat
  transactionCount := record.header.transactions.length
  sourceKey := record.key

/-- The row of another record whose height fits its column. -/
def changeRow (record : Record) : ChangeRow :=
  ⟨record.height.toNat, record.flushId, record.payload, record.ancestral⟩

variable {record : Record}

/-- A block that is stored has its row. -/
theorem blockRowStored (block : record.isBlock = true) (storable : record.isStorable = true)
    (keeps : record.operation ≠ .delete) : BlockRow.ofRecord record = .ok record.blockRow := by
  rw [storableOfKept keeps, block, if_pos rfl] at storable
  cases stored : BlockRow.ofRecord record with
  | ok row =>
      obtain ⟨_, _, rfl⟩ := BlockRow.eqOfRecord stored
      rfl
  | error cause => simp [stored, Except.toBool] at storable

/-- The row that a record of another kind stores. -/
theorem changeRowEqOf {row : ChangeRow} (stored : ChangeRow.ofRecord record = .ok row) :
    row = record.changeRow := by
  unfold ChangeRow.ofRecord signedColumn at stored
  split at stored
  · exact (Except.ok.inj stored).symm
  · cases stored

/-- A change that is stored has its row. -/
theorem changeRowStored (change : record.isBlock = false) (storable : record.isStorable = true)
    (keeps : record.operation ≠ .delete) : ChangeRow.ofRecord record = .ok record.changeRow := by
  rw [storableOfKept keeps, change, if_neg Bool.false_ne_true] at storable
  cases stored : ChangeRow.ofRecord record with
  | ok row => rw [changeRowEqOf stored]
  | error cause => simp [stored, Except.toBool] at storable

end Record

namespace Tables

section Entries

variable {α : Type} (entry : Tables → Option α) (own : Record → Prop) [DecidablePred own]
  (value : Record → Option α) {records : List Record}

/-- Records that are not about an entry leave it as it is. -/
theorem entryKept
    (enters : ∀ tables write, entry (enter tables write) =
      (write.effect (own write.record) (value write.record)).run (entry tables))
    (tables : Tables) (others : ∀ record ∈ records, ¬own record) :
    entry (tables.writeAll true records) = entry tables := by
  induction records generalizing tables with
  | nil => rfl
  | cons record rest inductionHypothesis =>
      obtain ⟨other, later⟩ := List.forall_mem_cons.mp others
      have first := enters tables ⟨true, record⟩
      rw [Write.effect, if_neg fun both => other both.1, Effect.runIdle] at first
      rw [writeAll, List.foldl_cons, ← writeAll, inductionHypothesis _ later]
      exact first

/-- The last record that is about an entry decides it, by the content that is stored of it. -/
theorem entryOverwritten
    (enters : ∀ tables write, entry (enter tables write) =
      (write.effect (own write.record) (value write.record)).run (entry tables))
    (tables : Tables) {last : Record} (isLast : LastOf own records last)
    (storable : ∀ record ∈ records, record.isStorable = true) {content : Option α}
    (stored : own last → last.isStorable = true → last.operation ≠ .delete →
      value last = content) :
    entry (tables.writeAll true records) =
      if last.operation = .delete then none else content := by
  obtain ⟨before, after, rfl, isOwn, others⟩ := isLast
  have fits := storable last (List.mem_append_right _ List.mem_cons_self)
  have decides := enters (tables.writeAll true before) ⟨true, last⟩
  rw [Write.effect, if_pos ⟨isOwn, fits⟩] at decides
  rw [writeAllAppend, writeAll, List.foldl_cons, ← writeAll, entryKept entry own value enters _ others]
  refine decides.trans ?_
  split
  · rfl
  · rename_i keeps
    exact stored isOwn fits keeps

end Entries

section Identities

variable {records : List Record} {last : Record} {hash : String} {key : ChangeKey}

/-- The row of a block is that of the last record of it. -/
theorem blockOverwritten (tables : Tables) (isLast : LastOf (Record.IsOf hash) records last)
    (storable : ∀ record ∈ records, record.isStorable = true) :
    (tables.writeAll true records).blocks[hash]? =
      if last.operation = .delete then none else some last.blockRow := by
  apply entryOverwritten (fun tables => tables.blocks[hash]?) (Record.IsOf hash)
    (fun record => (BlockRow.ofRecord record).toOption)
    (fun tables write => getBlockEnter tables write hash) tables isLast storable
  intro own fits keeps
  rw [Record.blockRowStored own.1 fits keeps]
  rfl

/-- The transactions of a block are those of the last record of it. -/
theorem transactionsOverwritten (tables : Tables)
    (isLast : LastOf (Record.IsOf hash) records last)
    (storable : ∀ record ∈ records, record.isStorable = true) :
    (tables.writeAll true records).Laid hash
      (if last.operation = .delete then [] else last.header.transactions) := by
  intro place
  rw [entryOverwritten (fun tables => tables.transactions[(⟨hash, place⟩ : TransactionKey)]?)
    (Record.IsOf hash) (fun record => record.header.transactions[place]?)
    (fun tables write => getTransactionEnter tables write ⟨hash, place⟩) tables isLast storable
    fun _ _ _ => rfl]
  split <;> rfl

/-- The row of a change is that of the last record of it. -/
theorem changeOverwritten (tables : Tables) (isLast : LastOf (Record.Changes key) records last)
    (storable : ∀ record ∈ records, record.isStorable = true) :
    (tables.writeAll true records).changes[key]? =
      if last.operation = .delete then none else some last.changeRow := by
  apply entryOverwritten (fun tables => tables.changes[key]?) (Record.Changes key)
    (fun record => (ChangeRow.ofRecord record).toOption)
    (fun tables write => getChangeEnter tables write key) tables isLast storable
  intro own fits keeps
  rw [Record.changeRowStored own.1 fits keeps]
  rfl

end Identities

/-- Of the blocks at a height the one with the least hash comes first. -/
theorem firstBlockAt {tables : Tables} {hash : String} {row : BlockRow} {height : Int}
    (found : tables.blocks[hash]? = some row) (own : row.height = height)
    (least : ∀ (other : String) (otherRow : BlockRow), tables.blocks[other]? = some otherRow →
      otherRow.height = height → ¬other < hash) :
    (tables.blocksAt height).head? = some (hash, row) := by
  have listed : (hash, row) ∈ tables.blocksAt height :=
    List.mem_filter.mpr
      ⟨Std.ExtTreeMap.mem_toList_iff_getElem?_eq_some.mpr found, decide_eq_true own⟩
  have ascend : (tables.blocksAt height).Pairwise fun lower upper =>
      compare lower.1 upper.1 = .lt :=
    Std.ExtTreeMap.ordered_keys_toList.filter _
  cases blocks : tables.blocksAt height with
  | nil =>
      rw [blocks] at listed
      cases listed
  | cons first rest =>
      rw [blocks] at listed ascend
      rcases List.mem_cons.mp listed with rfl | later
      · rfl
      · have smaller := List.rel_of_pairwise_cons ascend later
        have member : first ∈ tables.blocksAt height := by
          rw [blocks]
          exact List.mem_cons_self
        obtain ⟨present, same⟩ := List.mem_filter.mp member
        have stored := Std.ExtTreeMap.mem_toList_iff_getElem?_eq_some.mp present
        exact absurd (compare_lt_iff_lt.mp smaller)
          (least first.1 first.2 stored (of_decide_eq_true same))

/-- The first block at a height is read as the header that its record had, if that header has the
height of the record. -/
theorem blockAtOfFirst {tables : Tables} {hash : String} {record : Record} {payload : BlockPayload}
    (stored : BlockRow.ofRecord record = .ok record.blockRow)
    (found : tables.blocks[hash]? = some record.blockRow)
    (laid : tables.Laid hash record.header.transactions) (header : record.block = some payload)
    (own : payload.height = record.height)
    (least : ∀ (other : String) (row : BlockRow), tables.blocks[other]? = some row →
      row.height = record.height.toNat → ¬other < hash) :
    tables.blockAt record.height = .ok (some payload) := by
  have fits := (BlockRow.eqOfRecord stored).1
  have column : signedColumn "height" record.height = .ok (record.height.toNat : Int) := if_pos fits
  have first : (tables.blocksAt record.height.toNat).head? = some (hash, record.blockRow) :=
    firstBlockAt found rfl least
  have read := BlockRow.payloadOfRecord stored (tables.transactionsOf hash)
  have given : record.header = payload := by
    rw [Record.header, header]
    rfl
  rw [transactionsOfLaid laid, given, ← own] at read
  simp only [blockAt, column, first, transactionsOfLaid laid, given, read, bind, Except.bind]
  rfl

end Tables

namespace Replica

variable {replica : Replica} {records : List Record}

/-- What a batch leaves of a block that it is about. -/
structure BlockLeft (tables : Tables) (hash : String) (last : Record) : Prop where
  dropped : last.operation = .delete → tables.blocks[hash]? = none ∧ tables.Laid hash []
  put : last.operation ≠ .delete → tables.blocks[hash]? = some last.blockRow ∧
    tables.Laid hash last.header.transactions ∧
      tables.transactionsOf hash = last.header.transactions
  read : last.operation ≠ .delete → ∀ payload, last.block = some payload →
    payload.height = last.height →
    (∀ (other : String) (row : BlockRow), tables.blocks[other]? = some row →
      row.height = last.height.toNat → ¬other < hash) →
    tables.blockAt last.height = .ok (some payload)

/-- A batch that is accepted and may replace what is there leaves of each identity what its last
record of it says, and of all others what was there. -/
theorem overwritesIdentities (accepted : (replica.apply true records).1 = .ok ()) :
    let before := replica.visible
    let after := (replica.apply true records).2.visible
    (∀ hash,
      (∀ last, LastOf (Record.IsOf hash) records last → BlockLeft after hash last) ∧
        ((∀ record ∈ records, ¬record.IsOf hash) → after.blocks[hash]? = before.blocks[hash]? ∧
          ∀ place, after.transactions[(⟨hash, place⟩ : TransactionKey)]? =
            before.transactions[(⟨hash, place⟩ : TransactionKey)]?)) ∧
      ∀ key : ChangeKey,
        (∀ last, LastOf (Record.Changes key) records last →
          after.changes[key]? = if last.operation = .delete then none else some last.changeRow) ∧
        ((∀ record ∈ records, ¬record.Changes key) →
          after.changes[key]? = before.changes[key]?) := by
  intro before after
  obtain ⟨written, _, _, storable⟩ := workingOfApply (Prod.ext accepted rfl)
  change after = before.writeAll true records at written
  rw [written]
  refine ⟨fun hash => ⟨fun last isLast => ?_, fun others => ⟨?_, fun place => ?_⟩⟩,
    fun key => ⟨fun last isLast => before.changeOverwritten isLast storable, fun others => ?_⟩⟩
  · have row := before.blockOverwritten isLast storable
    have laid := before.transactionsOverwritten isLast storable
    constructor
    · intro deletes
      rw [if_pos deletes] at row laid
      exact ⟨row, laid⟩
    · intro keeps
      rw [if_neg keeps] at row laid
      exact ⟨row, laid, Tables.transactionsOfLaid laid⟩
    · intro keeps payload header own least
      rw [if_neg keeps] at row laid
      obtain ⟨earlier, later, rfl, about, _⟩ := isLast
      have stored := storable last (List.mem_append_right _ List.mem_cons_self)
      exact Tables.blockAtOfFirst (Record.blockRowStored about.1 stored keeps) row laid header own
        least
  · exact Tables.entryKept (fun tables => tables.blocks[hash]?) (Record.IsOf hash)
      (fun record => (BlockRow.ofRecord record).toOption)
      (fun tables write => tables.getBlockEnter write hash) before others
  · exact Tables.entryKept
      (fun tables => tables.transactions[(⟨hash, place⟩ : TransactionKey)]?) (Record.IsOf hash)
      (fun record => record.header.transactions[place]?)
      (fun tables write => tables.getTransactionEnter write ⟨hash, place⟩) before others
  · exact Tables.entryKept (fun tables => tables.changes[key]?) (Record.Changes key)
      (fun record => (ChangeRow.ofRecord record).toOption)
      (fun tables write => tables.getChangeEnter write key) before others

/-- The change of a transaction at height one, with an ancestral payload or without one. -/
def changeOf (ancestral : Option Bytes) : Record :=
  { Record.blank 1 with kind := .transaction, payload := [7], ancestral }

/-- A block with two transactions that is deleted and written again with another one has only the
new one, and is read as it was written. -/
theorem overwritesBlock :
    let before := store.makeAll [.begin, .apply false [blockOf [[1], [2]], changeOf none]] empty
    let deletion := { blockOf [] with operation := .delete }
    let batch := [blockOf [[3], [4], [5]], deletion, changeOf (some []), blockOf [[6]]]
    let after := (before.apply true batch).2.visible
    (before.apply true batch).1 = .ok () ∧
      LastOf (Record.IsOf "01") batch (blockOf [[6]]) ∧
      before.visible.transactionsOf "01" = [[1], [2]] ∧ after.transactionsOf "01" = [[6]] ∧
      after.blockAt 1 = .ok (blockOf [[6]]).block ∧
      after.changes[ChangeKey.ofRecord (changeOf none)]? = some ⟨1, "", [7], some []⟩ := by
  intro before deletion batch after
  have accepted : (before.apply true batch).1 = .ok () := by decide +kernel
  have isLast : LastOf (Record.IsOf "01") batch (blockOf [[6]]) :=
    ⟨batch.take 3, [], rfl, by decide +kernel, by simp⟩
  have lastChange : LastOf (Record.Changes (.ofRecord (changeOf none))) batch
      (changeOf (some [])) :=
    ⟨batch.take 2, batch.drop 3, rfl, by decide, by decide⟩
  have single : after.blocks.toList.map Prod.fst = ["01"] := by decide +kernel
  obtain ⟨blocks, changes⟩ := overwritesIdentities accepted
  have left := (blocks "01").1 _ isLast
  obtain ⟨_, _, transactions⟩ := left.put (by decide)
  have read := left.read (by decide) _ rfl rfl
  refine ⟨accepted, isLast, by decide +kernel, transactions, read ?_,
    (changes (.ofRecord (changeOf none))).1 _ lastChange⟩
  intro other row found _ below
  have member := List.mem_map_of_mem (f := Prod.fst)
    (Std.ExtTreeMap.mem_toList_iff_getElem?_eq_some.mpr found)
  change other ∈ after.blocks.toList.map Prod.fst at member
  rw [single, List.mem_singleton] at member
  exact lt_irrefl other (member ▸ below)

end Replica

end Backfill
