/-
This file compares the number of transactions that the row of a block tells with the number of those
that are stored for it. They differ once a block that is there is inserted again with more
transactions: its row stays, and the transactions that are too many are stored all the same.
-/

import Backfill.Proofs.Replica.Transactions
import Mathlib.Data.List.Induction

namespace Backfill

namespace Write

/-- The transactions of a block after a write: none, those of the write, or those that were there
with the ones of the write behind them for which there was no place yet. -/
def lay (hash : String) (raws : List Bytes) (write : Write) : List Bytes :=
  if write.Of hash then
    if write.record.operation = .delete then []
    else if write.replaces then write.transactions
    else raws ++ write.transactions.drop raws.length
  else raws

/-- A write that leaves the row of a block as it is, if there is one. -/
def Spares (hash : String) (write : Write) : Prop :=
  write.Of hash → write.replaces = false ∧ write.record.operation ≠ .delete

/-- A write that leaves the row of a block adds transactions exactly if it has more of them. -/
theorem lengthLay {hash : String} {write : Write} (spares : write.Spares hash)
    (raws : List Bytes) :
    raws.length ≤ (write.lay hash raws).length ∧
      ((write.lay hash raws).length = raws.length ↔
        (write.Of hash → write.transactions.length ≤ raws.length)) := by
  unfold lay
  by_cases own : write.Of hash
  · obtain ⟨inserts, keeps⟩ := spares own
    rw [if_pos own, if_neg keeps, inserts]
    simp only [Bool.false_eq_true, if_false, List.length_append, List.length_drop, own,
      true_implies]
    omega
  · simp [own]

/-- Writes that leave the row of a block add transactions exactly if one of them has more. -/
theorem lengthLayAll {hash : String} {writes : List Write}
    (spare : ∀ write ∈ writes, write.Spares hash) (raws : List Bytes) :
    raws.length ≤ (writes.foldl (lay hash) raws).length ∧
      ((writes.foldl (lay hash) raws).length = raws.length ↔
        ∀ write ∈ writes, write.Of hash → write.transactions.length ≤ raws.length) := by
  induction writes generalizing raws with
  | nil => simp
  | cons write rest inductionHypothesis =>
      obtain ⟨grows, same⟩ := lengthLay (spare write List.mem_cons_self) raws
      obtain ⟨growsLater, sameLater⟩ := inductionHypothesis
        (fun other member => spare other (List.mem_cons_of_mem _ member)) (write.lay hash raws)
      rw [List.foldl_cons, List.forall_mem_cons, ← same]
      constructor
      · omega
      · constructor
        · intro equal
          have first : (write.lay hash raws).length = raws.length := by omega
          rw [first] at sameLater
          exact ⟨first, sameLater.mp equal⟩
        · rintro ⟨first, later⟩
          rw [first] at sameLater
          exact sameLater.mpr later

end Write

namespace Tables

variable {tables : Tables} {hash : String}

/-- The transactions of a block that lie in order do so after a write. -/
theorem laidEnter {raws : List Bytes} (laid : tables.Laid hash raws) (write : Write) :
    (tables.enter write).Laid hash (write.lay hash raws) := by
  intro place
  rw [getTransactionEnter, laid, Write.onTransactionOf, Write.lay]
  by_cases own : write.Of hash
  · rw [if_pos own, if_pos own]
    by_cases deletes : write.record.operation = .delete
    · rw [if_pos deletes, if_pos deletes]
      rfl
    · rw [if_neg deletes, if_neg deletes]
      cases write.replaces with
      | true => rfl
      | false =>
          simp only [Effect.put, Bool.false_eq_true, if_false, Effect.run, List.getElem?_append]
          by_cases below : place < raws.length
          · simp [below]
          · rw [if_neg below, List.getElem?_eq_none (Nat.le_of_not_lt below), List.getElem?_drop,
              Nat.add_sub_cancel' (Nat.le_of_not_lt below)]
            rfl
  · rw [if_neg own, if_neg own]
    exact Effect.runIdle _

theorem laidEmpty (hash : String) : empty.Laid hash [] := by
  intro place
  rfl

/-- How the row of a block came about: a write put it, and those after it left it as it is. -/
structure Put (hash : String) (writes : List Write) (row : BlockRow) (earlier : List Write)
    (put : Write) (later : List Write) : Prop where
  split : writes = earlier ++ put :: later
  own : put.Of hash
  keeps : put.record.operation ≠ .delete
  stored : BlockRow.ofRecord put.record = .ok row
  spare : ∀ write ∈ later, write.Spares hash

/-- What is known of a block after writes: it has neither a row nor transactions, or its row was put
by one of the writes, and those after it have added to the transactions. -/
inductive Known (hash : String) (writes : List Write) (tables : Tables) : Prop
  | absent (row : tables.blocks[hash]? = none) (laid : tables.Laid hash [])
  | put (row : BlockRow) (present : tables.blocks[hash]? = some row) (earlier : List Write)
      (last : Write) (later : List Write) (put : Put hash writes row earlier last later)
      (laid : tables.Laid hash (later.foldl (Write.lay hash) last.transactions))

/-- A write that puts the row of a block makes known how it came about. -/
theorem knownPut (writes : List Write) {write : Write} {row : BlockRow} (own : write.Of hash)
    (keeps : write.record.operation ≠ .delete) (stored : BlockRow.ofRecord write.record = .ok row)
    (present : tables.blocks[hash]? = some row) (laid : tables.Laid hash write.transactions) :
    Known hash (writes ++ [write]) tables :=
  .put row present writes write [] ⟨rfl, own, keeps, stored, by simp⟩ laid

/-- What is known of a block stays known through a write that spares its row. -/
theorem knownSpared {writes earlier later : List Write} {write last : Write} {row : BlockRow}
    (put : Put hash writes row earlier last later) (spares : write.Spares hash)
    (present : (tables.enter write).blocks[hash]? = some row)
    (laid : tables.Laid hash (later.foldl (Write.lay hash) last.transactions)) :
    Known hash (writes ++ [write]) (tables.enter write) := by
  apply Known.put row present earlier last (later ++ [write])
  · constructor
    · rw [put.split, List.append_assoc, List.cons_append]
    · exact put.own
    · exact put.keeps
    · exact put.stored
    · intro other member
      rcases List.mem_append.mp member with before | same
      · exact put.spare other before
      · obtain rfl := List.mem_singleton.mp same
        exact spares
  · rw [List.foldl_append]
    exact laidEnter laid write

theorem knownEnter {writes : List Write} (known : Known hash writes tables) (write : Write) :
    Known hash (writes ++ [write]) (tables.enter write) := by
  have row := tables.getBlockEnter write hash
  by_cases own : write.Of hash
  · by_cases deletes : write.record.operation = .delete
    · have laid (raws : List Bytes) (before : tables.Laid hash raws) :
          (tables.enter write).Laid hash [] := by
        have after := laidEnter before write
        rwa [Write.lay, if_pos own, if_pos deletes] at after
      apply Known.absent
      · rw [row, Write.onBlockOf, if_pos own, if_pos deletes]
        rfl
      · cases known with
        | absent _ before => exact laid _ before
        | put _ _ _ _ _ _ before => exact laid _ before
    · obtain ⟨fresh, stored, effect⟩ := Write.onBlockKept own deletes
      rw [effect] at row
      cases known with
      | absent missing before =>
          apply knownPut writes own deletes stored
          · rw [row, missing]
            cases write.replaces <;> rfl
          · have after := laidEnter before write
            rw [Write.lay, if_pos own, if_neg deletes] at after
            simpa using after
      | put old present earlier last later put before =>
          cases replaces : write.replaces with
          | true =>
              rw [replaces] at row
              apply knownPut writes own deletes stored row
              have after := laidEnter before write
              rwa [Write.lay, if_pos own, if_neg deletes, replaces, if_pos rfl] at after
          | false =>
              rw [replaces, present] at row
              exact knownSpared put (fun _ => ⟨replaces, deletes⟩) row before
  · rw [Write.onBlockOf, if_neg own, Effect.runIdle] at row
    cases known with
    | absent missing before =>
        have after := laidEnter before write
        rw [Write.lay, if_neg own] at after
        exact .absent (row.trans missing) after
    | put old present earlier last later put before =>
        exact knownSpared put (fun other => absurd other own) (row.trans present) before

/-- How the rows of the blocks came about that writes have left in tables without rows. -/
theorem knownEnterAll (hash : String) (writes : List Write) :
    Known hash writes (empty.enterAll writes) := by
  induction writes using List.reverseRec with
  | nil => exact .absent rfl (laidEmpty hash)
  | append_singleton before write inductionHypothesis =>
      rw [enterAllAppend]
      exact knownEnter inductionHypothesis write

/-- A block row tells the number of transactions of the record that it is made of. -/
theorem countOfRow {record : Record} {row : BlockRow} (stored : BlockRow.ofRecord record = .ok row) :
    row.transactionCount = record.header.transactions.length := by
  unfold BlockRow.ofRecord at stored
  simp only [bind, Except.bind] at stored
  split at stored
  · cases stored
  · split at stored
    · cases stored
    · obtain rfl := Except.ok.inj stored
      rfl

end Tables

namespace Replica

/-- The row of a block tells fewer transactions than are stored exactly if a later write of the
block, which left the row as it was, had more. -/
theorem countKnown {writes : List Write} {hash : String} {row : BlockRow}
    (found : (Tables.empty.enterAll writes).blocks[hash]? = some row) :
    ∃ earlier put later, Tables.Put hash writes row earlier put later ∧
      row.transactionCount ≤ ((Tables.empty.enterAll writes).transactionsOf hash).length ∧
      (row.transactionCount = ((Tables.empty.enterAll writes).transactionsOf hash).length ↔
        ∀ write ∈ later, write.Of hash →
          write.transactions.length ≤ put.transactions.length) := by
  cases Tables.knownEnterAll hash writes with
  | absent missing => simp [missing] at found
  | put stored present earlier put later isPut laid =>
      obtain rfl := Option.some.inj (present.symm.trans found)
      have count := Tables.countOfRow isPut.stored
      obtain ⟨grows, same⟩ := Write.lengthLayAll isPut.spare put.transactions
      refine ⟨earlier, put, later, isPut, ?_⟩
      rw [Tables.transactionsOfLaid laid, count, ← same]
      change (put.transactions.length : Int) ≤ _ ∧ ((put.transactions.length : Int) = _ ↔ _)
      omega

/-- A batch that replaces and deletes nothing leaves all rows as they are, but adds the transactions
that its records have for free places. -/
theorem insertKeepsRows {replica : Replica} {records : List Record}
    (keep : ∀ record ∈ records, record.operation ≠ .delete)
    (accepted : (replica.apply false records).1 = .ok ()) (calls : List SinkCall) :
    ((∀ (hash : String) (row : BlockRow), replica.visible.blocks[hash]? = some row →
        (replica.apply false records).2.visible.blocks[hash]? = some row) ∧
      (∀ (key : ChangeKey) (row : ChangeRow), replica.visible.changes[key]? = some row →
        (replica.apply false records).2.visible.changes[key]? = some row) ∧
      ∀ hash, (replica.apply false records).2.visible.transactionsOf hash =
          replica.visible.transactionsOf hash ↔
        ∀ record ∈ records, record.isBlock = true → record.keyText = hash →
          ∀ place < record.header.transactions.length,
            (⟨hash, place⟩ : TransactionKey) ∈ replica.visible.transactions) ∧
    ∀ (hash : String) (row : BlockRow),
      (store.makeAll calls empty).visible.blocks[hash]? = some row →
        ∃ earlier put later,
          Tables.Put hash (Transcript.ofCalls calls).visible row earlier put later ∧
          row.transactionCount ≤
            ((store.makeAll calls empty).visible.transactionsOf hash).length ∧
          (row.transactionCount =
              ((store.makeAll calls empty).visible.transactionsOf hash).length ↔
            ∀ write ∈ later, write.Of hash →
              write.transactions.length ≤ put.transactions.length) := by
  constructor
  · obtain ⟨written, _, _, storable⟩ := workingOfApply (Prod.ext accepted rfl)
    have within : replica.visible.Within (replica.visible.writeAll false records) :=
      Tables.withinWriteAll keep
    rw [written]
    exact ⟨within.blocks, within.changes,
      Tables.transactionsOfInserted replica.visible keep storable⟩
  · intro hash row found
    have left := Transcript.replicaOfCalls .empty calls
    change store.makeAll calls empty = _ at left
    rw [left, Transcript.visibleReplica] at found ⊢
    exact countKnown found

/-- A block at height one with the hash "01" and with some transactions. -/
def blockOf (transactions : List Bytes) : Record :=
  { Record.blank 1 with block := some { BlockPayload.blank with height := 1, transactions } }

/-- A block with one transaction is inserted, and then with two. -/
def lengthening : List SinkCall :=
  [.begin, .apply false [blockOf [[1]]], .apply false [blockOf [[1], [2]]]]

/-- A block that is inserted again unchanged keeps its transaction; one that is inserted with a
second transaction gets it, and its row goes on to tell one. -/
theorem insertKeepsRowsOfBlock :
    let inserted := store.makeAll [.begin, .apply false [blockOf [[1]]]] empty
    (inserted.apply false [blockOf [[1]]]).1 = .ok () ∧
      (inserted.apply false [blockOf [[1]]]).2.visible.transactionsOf "01" =
        inserted.visible.transactionsOf "01" ∧
      ∃ row, (store.makeAll lengthening empty).visible.blocks["01"]? = some row ∧
        row.transactionCount <
          ((store.makeAll lengthening empty).visible.transactionsOf "01").length ∧
        ∃ earlier put later,
          Tables.Put "01" (Transcript.ofCalls lengthening).visible row earlier put later ∧
            ∃ write ∈ later, put.transactions.length < write.transactions.length := by
  have accepted : ((store.makeAll [.begin, .apply false [blockOf [[1]]]] empty).apply false
      [blockOf [[1]]]).1 = .ok () := by
    decide +kernel
  obtain ⟨⟨_, _, kept⟩, counts⟩ := insertKeepsRows (by decide) accepted lengthening
  have same := (kept "01").mpr (by decide +kernel)
  have counted : ((store.makeAll lengthening empty).visible.blocks["01"]?.map
      BlockRow.transactionCount) = some 1 := by
    decide +kernel
  have stored : ((store.makeAll lengthening empty).visible.transactionsOf "01").length = 2 := by
    decide +kernel
  obtain ⟨row, found, count⟩ := Option.map_eq_some_iff.mp counted
  obtain ⟨earlier, put, later, isPut, _, equal⟩ := counts "01" row found
  refine ⟨accepted, same, row, found, by omega, earlier, put, later, isPut, ?_⟩
  by_contra none
  simp only [not_exists, not_and, Nat.not_lt] at none
  have all := equal.mpr fun write member _ => none write member
  omega

/-- A transaction is added to a block that is inserted a second time. -/
theorem insertAddsTransaction :
    let before := store.makeAll [.begin, .apply false [blockOf [[1]]]] empty
    let after := before.apply false [blockOf [[1], [2]]]
    after.1 = .ok () ∧ before.visible.transactionsOf "01" = [[1]] ∧
      after.2.visible.transactionsOf "01" = [[1], [2]] ∧
      after.2.visible.blocks["01"]?.map BlockRow.transactionCount = some 1 := by
  decide +kernel

end Replica

end Backfill
