/-
This file applies batches statement by statement, as a database does that goes back to a savepoint
where a statement fails. All records of a batch are applied in order, or none of them is: the first
one that does not fit its columns is named, and the transaction goes on.
-/

import Backfill.Proofs.Replica.Entries
import Backfill.Proofs.Replica.Tally

namespace Backfill

/-- The column that a record does not fit, where the height comes before the view of a block. -/
def Record.unfit? (record : Record) : Option String :=
  if record.operation = .delete then none
  else if maxSigned < record.height.toNat then some "height"
  else if record.isBlock ∧ maxSigned < record.header.proposedInView.toNat then
    some "proposed_in_view"
  else none

/-- Statements change tables one after the other, up to the first one that fails. -/
abbrev Statements := Tables → Except ReplicaError Unit × Tables

namespace Statements

def done : Statements :=
  fun tables => (.ok (), tables)

/-- A statement that changes the tables. -/
def change (next : Tables → Tables) : Statements :=
  fun tables => (.ok (), next tables)

def andThen (first second : Statements) : Statements := fun tables =>
  match first tables with
  | (.ok (), next) => second next
  | failed => failed

/-- Statements that need a value, which may not fit a column. -/
def given {α : Type} (value : Except ReplicaError α) (statements : α → Statements) : Statements :=
  fun tables =>
    match value with
    | .ok value => statements value tables
    | .error cause => (.error cause, tables)

/-- A number of transactions as a signed number of a column, if it fits. -/
def countColumn (field : String) (count : Nat) : Except ReplicaError Nat :=
  if count ≤ maxSigned then .ok count else .error (.integerOverflow field)

/-- Puts the transactions of a block at the places from `index` on, one by one. -/
def putTransactions (hash : String) : Nat → List Bytes → Statements
  | _, [] => done
  | index, raw :: rest =>
      given (countColumn "txn_index" index) fun place =>
        (change fun tables => { tables with
          transactions := tables.transactions.insertIfNew ⟨hash, place⟩ raw }).andThen
            (putTransactions hash (index + 1) rest)

/-- Puts the row of a block and then its transactions, from which the old ones are removed if the
row may be replaced. -/
def putBlock (update : Bool) (record : Record) (row : BlockRow) : Statements :=
  given (countColumn "txn_count" record.header.transactions.length) fun count =>
    let row := { row with transactionCount := count }
    (change fun tables => { tables with
      blocks :=
        if update then tables.blocks.insert record.keyText row
        else tables.blocks.insertIfNew record.keyText row }).andThen
      ((if update then change fun tables => { tables with
          transactions := Tables.dropTransactions tables.transactions record.keyText }
        else done).andThen (putTransactions record.keyText 0 record.header.transactions))

/-- Removes the transactions of a block and then its row. -/
def dropBlock (hash : String) : Statements :=
  (change fun tables => { tables with
    transactions := Tables.dropTransactions tables.transactions hash }).andThen
      (change fun tables => { tables with blocks := tables.blocks.erase hash })

/-- The statements of a record, before which the height and the view of a block are brought into
their columns. -/
def ofRecord (update : Bool) (record : Record) : Statements :=
  match record.isBlock, record.operation with
  | true, .delete => dropBlock record.keyText
  | true, _ => given (BlockRow.ofRecord record) (putBlock update record)
  | false, .delete => change (Tables.dropChange · (.ofRecord record))
  | false, _ =>
      given (ChangeRow.ofRecord record) fun row =>
        change (Tables.putChange · update (.ofRecord record) row)

/-- The statements of a batch. -/
def ofBatch (update : Bool) : List Record → Statements
  | [] => done
  | record :: rest => (ofRecord update record).andThen (ofBatch update rest)

/-- Statements behind a savepoint, to which the tables go back where one of them fails. -/
def guarded (statements : Statements) : Statements := fun tables =>
  match statements tables with
  | (.ok (), next) => (.ok (), next)
  | (.error cause, _) => (.error cause, tables)

end Statements

/-- Applies a batch statement by statement behind a savepoint. -/
def Replica.applyGuarded (update : Bool) (records : List Record) (replica : Replica) :
    Except ReplicaError Unit × Replica :=
  match replica.working with
  | none => (.error .noTransaction, replica)
  | some tables =>
      let (result, next) := (Statements.ofBatch update records).guarded tables
      (result, { replica with working := some next })

section Fitting

variable {record : Record} {field : String}

/-- A record fits its columns unless it keeps something whose height or view is too large. -/
theorem Record.fitsIff (record : Record) :
    record.unfit? = none ↔ (record.operation ≠ .delete → record.height.toNat ≤ maxSigned ∧
      (record.isBlock = true → record.header.proposedInView.toNat ≤ maxSigned)) := by
  unfold Record.unfit?
  split
  · simp_all
  · split
    · simp_all
    · split
      · simp_all
      · simp_all

/-- The columns of a row decide in the order of their conversions. -/
theorem signedColumnEq (field : String) (value : UInt64) :
    signedColumn field value =
      if maxSigned < value.toNat then .error (.integerOverflow field) else .ok value.toNat := by
  unfold signedColumn
  split
  · rw [if_neg (by omega)]
  · rw [if_pos (by omega)]

/-- Whether a block has a row depends on whether the record fits its columns. -/
theorem blockRowEq (block : record.isBlock = true) (keeps : record.operation ≠ .delete) :
    match record.unfit? with
    | some field => BlockRow.ofRecord record = .error (.integerOverflow field)
    | none => ∃ row, BlockRow.ofRecord record = .ok row := by
  unfold Record.unfit? BlockRow.ofRecord
  rw [if_neg keeps]
  by_cases height : maxSigned < record.height.toNat
  · simp [signedColumnEq, height, bind, Except.bind]
  · by_cases view : maxSigned < record.header.proposedInView.toNat
    · simp [signedColumnEq, height, view, block, bind, Except.bind]
    · simp [signedColumnEq, height, view, bind, Except.bind, pure, Except.pure]

/-- Whether another record has a row depends on whether it fits its columns. -/
theorem changeRowEq (other : record.isBlock = false) (keeps : record.operation ≠ .delete) :
    match record.unfit? with
    | some field => ChangeRow.ofRecord record = .error (.integerOverflow field)
    | none => ∃ row, ChangeRow.ofRecord record = .ok row := by
  unfold Record.unfit? ChangeRow.ofRecord
  rw [if_neg keeps]
  by_cases height : maxSigned < record.height.toNat
  · simp [signedColumnEq, height, bind, Except.bind]
  · simp [signedColumnEq, height, other, bind, Except.bind, pure, Except.pure]

/-- What is deleted fits. -/
theorem keepsOfUnfit (unfit : record.unfit? = some field) : record.operation ≠ .delete := by
  intro deletes
  rw [Record.unfit?, if_pos deletes] at unfit
  cases unfit

theorem blockRowOfUnfit (block : record.isBlock = true) (unfit : record.unfit? = some field) :
    BlockRow.ofRecord record = .error (.integerOverflow field) := by
  simpa only [unfit] using blockRowEq block (keepsOfUnfit unfit)

theorem changeRowOfUnfit (other : record.isBlock = false) (unfit : record.unfit? = some field) :
    ChangeRow.ofRecord record = .error (.integerOverflow field) := by
  simpa only [unfit] using changeRowEq other (keepsOfUnfit unfit)

/-- A record that fits its columns can be stored. -/
theorem storableOfFits (fits : record.unfit? = none) : record.isStorable = true := by
  by_cases deletes : record.operation = .delete
  · simp only [Record.isStorable, deletes]
  · rw [Record.storableOfKept deletes]
    cases block : record.isBlock with
    | true =>
        have stored := blockRowEq block deletes
        rw [fits] at stored
        obtain ⟨row, stored⟩ := stored
        rw [stored]
        rfl
    | false =>
        have stored := changeRowEq block deletes
        rw [fits] at stored
        obtain ⟨row, stored⟩ := stored
        rw [stored]
        rfl

end Fitting

namespace Tables

variable {record : Record} {field : String} {update : Bool}

/-- A record that does not fit its columns is refused for the first one that it does not fit. -/
theorem applyRecordOfUnfit (update : Bool) (tables : Tables) (unfit : record.unfit? = some field) :
    tables.applyRecord update record = .error (.integerOverflow field) := by
  rw [applyRecordOfKept update tables (keepsOfUnfit unfit)]
  cases block : record.isBlock with
  | true =>
      rw [if_pos rfl, blockRowOfUnfit block unfit]
      rfl
  | false =>
      rw [if_neg Bool.false_ne_true, changeRowOfUnfit block unfit]
      rfl

/-- Records that fit their columns are applied in order. -/
theorem applyRecordsOfFits (update : Bool) (tables : Tables) {records : List Record}
    (fit : ∀ record ∈ records, record.unfit? = none) :
    tables.applyRecords update records = .ok (tables.writeAll update records) := by
  induction records generalizing tables with
  | nil => rfl
  | cons record rest inductionHypothesis =>
      obtain ⟨fits, othersFit⟩ := List.forall_mem_cons.mp fit
      rw [applyRecords, List.foldlM_cons, applyRecordOk update tables (storableOfFits fits)]
      exact inductionHypothesis _ othersFit

/-- The first record that does not fit its columns decides about the whole batch. -/
theorem applyRecordsOfUnfit {before after : List Record} (tables : Tables)
    (fit : ∀ earlier ∈ before, earlier.unfit? = none) (unfit : record.unfit? = some field) :
    tables.applyRecords update (before ++ record :: after) = .error (.integerOverflow field) := by
  have applied := applyRecordsOfFits update tables fit
  rw [applyRecords] at applied ⊢
  rw [List.foldlM_append, applied]
  change (writeAll update tables before).applyRecord update record >>= _ = _
  rw [applyRecordOfUnfit update _ unfit]
  rfl

end Tables

namespace Statements

variable {record : Record} {field : String} (update : Bool) (tables : Tables)

/-- The places of transactions fit their column if there are not too many of them. -/
theorem putTransactionsEq (hash : String) (index : Nat) (transactions : List Bytes)
    (short : index + transactions.length ≤ maxSigned) (tables : Tables) :
    putTransactions hash index transactions tables =
      (.ok (), { tables with
        transactions := Tables.addTransactions hash index transactions tables.transactions }) := by
  induction transactions generalizing index tables with
  | nil => rfl
  | cons raw rest inductionHypothesis =>
      have place : countColumn "txn_index" index = .ok index := if_pos (by omega)
      rw [List.length_cons] at short
      simp only [putTransactions, given, place, andThen, change]
      exact inductionHypothesis (index + 1) (by omega) _

theorem putBlockEq {row : BlockRow}
    (counted : row.transactionCount = record.header.transactions.length)
    (short : record.header.transactions.length ≤ maxSigned) :
    putBlock update record row tables =
      (.ok (), tables.putBlock update record.keyText row record.header.transactions) := by
  have count : countColumn "txn_count" record.header.transactions.length =
      .ok record.header.transactions.length := if_pos short
  have same : { row with transactionCount := record.header.transactions.length } = row := by
    rw [← counted]
  simp only [putBlock, given, count, same, andThen, change]
  cases update with
  | true => exact putTransactionsEq record.keyText 0 _ (by omega) _
  | false => exact putTransactionsEq record.keyText 0 _ (by omega) _

theorem ofRecordOfKept (keeps : record.operation ≠ .delete) :
    ofRecord update record =
      if record.isBlock then given (BlockRow.ofRecord record) (putBlock update record)
      else given (ChangeRow.ofRecord record) fun row =>
        change (Tables.putChange · update (.ofRecord record) row) := by
  unfold ofRecord
  cases operation : record.operation with
  | delete => exact absurd operation keeps
  | insert => cases record.isBlock <;> rfl
  | upsert => cases record.isBlock <;> rfl

/-- The statements of a record come to what writing it comes to. -/
theorem ofRecordOfWritten {next : Tables} (storable : record.isStorable = true)
    (short : record.header.transactions.length ≤ maxSigned)
    (written : tables.Written update record next) :
    ofRecord update record tables = (.ok (), next) := by
  cases written with
  | refused unstorable => simp [storable] at unstorable
  | blockDropped block _ deletes =>
      unfold ofRecord
      rw [block, deletes]
      rfl
  | blockPut block _ keeps row stored =>
      rw [ofRecordOfKept update keeps, if_pos block, stored, given]
      exact putBlockEq update tables (Tables.countOfRow stored) short
  | changeDropped other _ deletes =>
      unfold ofRecord
      rw [other, deletes]
      rfl
  | changePut other _ keeps row stored =>
      rw [ofRecordOfKept update keeps, if_neg (by simp [other]), stored]
      rfl

/-- The statements of a record that does not fit its columns fail before they change anything. -/
theorem ofRecordOfUnfit (unfit : record.unfit? = some field) :
    ofRecord update record tables = (.error (.integerOverflow field), tables) := by
  rw [ofRecordOfKept update (keepsOfUnfit unfit)]
  cases block : record.isBlock with
  | true => rw [if_pos rfl, blockRowOfUnfit block unfit, given]
  | false => rw [if_neg Bool.false_ne_true, changeRowOfUnfit block unfit, given]

/-- The statements of records that fit their columns write all of them. -/
theorem ofBatchOfFits {records : List Record} (fit : ∀ record ∈ records, record.unfit? = none)
    (short : ∀ record ∈ records, record.header.transactions.length ≤ maxSigned)
    (rest : List Record) :
    ofBatch update (records ++ rest) tables =
      ofBatch update rest (tables.writeAll update records) := by
  induction records generalizing tables with
  | nil => rfl
  | cons record others inductionHypothesis =>
      obtain ⟨fits, othersFit⟩ := List.forall_mem_cons.mp fit
      obtain ⟨few, othersShort⟩ := List.forall_mem_cons.mp short
      have first := ofRecordOfWritten update tables (storableOfFits fits) few
        (tables.writeWritten update record)
      rw [List.cons_append, ofBatch, andThen, first]
      exact inductionHypothesis _ othersFit othersShort

/-- Where a record does not fit its columns, the records before it are written already. -/
theorem ofBatchOfUnfit {before : List Record} (after : List Record)
    (fit : ∀ earlier ∈ before, earlier.unfit? = none)
    (short : ∀ earlier ∈ before, earlier.header.transactions.length ≤ maxSigned)
    (unfit : record.unfit? = some field) :
    ofBatch update (before ++ record :: after) tables =
      (.error (.integerOverflow field), tables.writeAll update before) := by
  rw [ofBatchOfFits update tables fit short, ofBatch, andThen, ofRecordOfUnfit update _ unfit]

end Statements

/-- Tables that records have been written to in order, each of them in full. -/
inductive Tables.InOrder (update : Bool) : Tables → List Record → Tables → Prop
  | nil (tables : Tables) : InOrder update tables [] tables
  | cons {tables next last : Tables} {record : Record} {rest : List Record}
      (storable : record.isStorable = true) (written : tables.Written update record next)
      (others : InOrder update next rest last) : InOrder update tables (record :: rest) last

theorem Tables.inOrderOfFits (update : Bool) (tables : Tables) {records : List Record}
    (fit : ∀ record ∈ records, record.unfit? = none) :
    tables.InOrder update records (tables.writeAll update records) := by
  induction records generalizing tables with
  | nil => exact .nil tables
  | cons record rest inductionHypothesis =>
      obtain ⟨fits, othersFit⟩ := List.forall_mem_cons.mp fit
      exact .cons (storableOfFits fits) (tables.writeWritten update record)
        (inductionHypothesis _ othersFit)

/-- Either all records of a batch fit their columns, or there is a first one that does not. -/
theorem firstUnfit (records : List Record) :
    (∀ record ∈ records, record.unfit? = none) ∨
      ∃ before record after field, records = before ++ record :: after ∧
        (∀ earlier ∈ before, earlier.unfit? = none) ∧ record.unfit? = some field := by
  induction records with
  | nil => exact .inl nofun
  | cons record rest inductionHypothesis =>
      cases unfit : record.unfit? with
      | some field => exact .inr ⟨[], record, rest, field, rfl, nofun, unfit⟩
      | none =>
          rcases inductionHypothesis with fit | ⟨before, other, after, field, rfl, fit, otherUnfit⟩
          · exact .inl (List.forall_mem_cons.mpr ⟨unfit, fit⟩)
          · exact .inr ⟨record :: before, other, after, field, rfl,
              List.forall_mem_cons.mpr ⟨unfit, fit⟩, otherUnfit⟩

namespace Replica

variable {replica : Replica} {tables : Tables} {update : Bool}

theorem applyOfFits (working : replica.working = some tables) {records : List Record}
    (fit : ∀ record ∈ records, record.unfit? = none) :
    replica.apply update records =
      (.ok (), { replica with working := some (tables.writeAll update records) }) := by
  simp only [apply, working, Tables.applyRecordsOfFits update tables fit]

theorem applyOfUnfit (before after : List Record) (working : replica.working = some tables)
    {record : Record} {field : String} (fit : ∀ earlier ∈ before, earlier.unfit? = none)
    (unfit : record.unfit? = some field) :
    replica.apply update (before ++ record :: after) =
      (.error (.integerOverflow field), replica) := by
  simp only [apply, working, Tables.applyRecordsOfUnfit tables fit unfit]

/-- A batch is applied as its statements behind a savepoint are. -/
theorem applyGuardedEq (update : Bool) {records : List Record} (replica : Replica)
    (short : ∀ record ∈ records, record.header.transactions.length ≤ maxSigned) :
    replica.applyGuarded update records = replica.apply update records := by
  unfold applyGuarded
  cases working : replica.working with
  | none => simp only [apply, working]
  | some tables =>
      rcases firstUnfit records with fit | ⟨before, record, after, field, rfl, fit, unfit⟩
      · have run := Statements.ofBatchOfFits update tables fit short []
        rw [List.append_nil] at run
        rw [applyOfFits working fit]
        simp only [Statements.guarded, run, Statements.ofBatch, Statements.done]
      · have few : ∀ earlier ∈ before, earlier.header.transactions.length ≤ maxSigned :=
          fun earlier member => short earlier (List.mem_append_left _ member)
        rw [applyOfUnfit before after working fit unfit]
        simp only [Statements.guarded, Statements.ofBatchOfUnfit update tables after fit few unfit]
        rw [← working]

/-- A batch whose records all fit their columns is applied in an open transaction, and any other
batch changes nothing. -/
theorem applyAllOrNothing (replica : Replica) (update : Bool) (records : List Record)
    (short : ∀ record ∈ records, record.header.transactions.length ≤ maxSigned) :
    replica.applyGuarded update records = replica.apply update records ∧
      (replica.working = none → replica.apply update records = (.error .noTransaction, replica)) ∧
      ∀ tables, replica.working = some tables →
        ((replica.apply update records).1 = .ok () ↔
          ∀ record ∈ records, record.operation ≠ .delete → record.height.toNat ≤ maxSigned ∧
            (record.isBlock = true → record.header.proposedInView.toNat ≤ maxSigned)) ∧
        (∀ next, replica.apply update records = (.ok (), next) →
          ∃ last, tables.InOrder update records last ∧ next = ⟨replica.committed, some last⟩) ∧
        ∀ cause next, replica.apply update records = (.error cause, next) →
          next = replica ∧ next.commit = (.ok (), .ofTables tables) ∧
            ∃ before record after field, records = before ++ record :: after ∧
              (∀ earlier ∈ before, earlier.unfit? = none) ∧ record.unfit? = some field ∧
              cause = .integerOverflow field ∧
              Statements.ofBatch update records tables =
                (.error cause, tables.writeAll update before) := by
  refine ⟨applyGuardedEq update replica short, fun closed => by simp only [apply, closed], ?_⟩
  intro tables working
  simp only [← Record.fitsIff]
  rcases firstUnfit records with fit | ⟨before, record, after, field, rfl, fit, unfit⟩
  · rw [applyOfFits working fit]
    refine ⟨⟨fun _ => fit, fun _ => rfl⟩, fun next applied => ?_, fun cause next refused => ?_⟩
    · obtain rfl := (Prod.mk.inj applied).2
      exact ⟨_, tables.inOrderOfFits update fit, rfl⟩
    · cases (Prod.mk.inj refused).1
  · have few : ∀ earlier ∈ before, earlier.header.transactions.length ≤ maxSigned :=
      fun earlier member => short earlier (List.mem_append_left _ member)
    have run := Statements.ofBatchOfUnfit update tables after fit few unfit
    rw [applyOfUnfit before after working fit unfit]
    refine ⟨⟨fun applied => ?_, fun all => ?_⟩, fun next applied => ?_,
      fun cause next refused => ?_⟩
    · cases applied
    · have fits := all record (List.mem_append_right _ List.mem_cons_self)
      rw [unfit] at fits
      cases fits
    · cases (Prod.mk.inj applied).1
    · obtain ⟨named, rfl⟩ := Prod.mk.inj refused
      obtain rfl := Except.error.inj named
      exact ⟨rfl, by simp only [commit, working], before, record, after, field, rfl, fit, unfit,
        rfl, run⟩

/-- A batch with a deletion, a block whose view fits no column and one whose height does not is
refused for the view, and a commit keeps what was written before. -/
theorem applyAllOrNothingMixed :
    let large : UInt64 := 18446744073709551615
    let header := { BlockPayload.blank with proposedInView := large }
    let earlier := Record.ofBlock [1] .blank
    let tables := Tables.empty.writeAll false [earlier]
    let replica : Replica := ⟨.empty, some tables⟩
    let good := Record.ofBlock [2] .blank
    let batch := [good, { good with operation := .delete, height := large },
      Record.ofBlock [3] header, { good with height := large }]
    (∀ record ∈ batch, record.header.transactions.length ≤ maxSigned) ∧
      replica.working = some tables ∧
      ∃ next, replica.apply false batch = (.error (.integerOverflow "proposed_in_view"), next) ∧
        next = replica ∧ next.commit = (.ok (), .ofTables tables) := by
  intro large header earlier tables replica good batch
  have short : ∀ record ∈ batch, record.header.transactions.length ≤ maxSigned := by decide
  have refused : replica.apply false batch =
      (.error (.integerOverflow "proposed_in_view"), replica) :=
    applyOfUnfit (batch.take 2) _ rfl (by decide) rfl
  obtain ⟨_, _, opened⟩ := applyAllOrNothing replica false batch short
  obtain ⟨_, _, fails⟩ := opened tables rfl
  obtain ⟨same, durable, _⟩ := fails _ _ refused
  exact ⟨short, rfl, replica, refused, same, durable⟩

end Replica

end Backfill
