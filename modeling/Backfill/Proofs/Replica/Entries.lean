/-
This file shows what writes do to single entries of tables. What a run of writes does to an entry
comes to deciding its value or to supplying one where there is none, so that writes which were
interrupted can be made again from the start.
-/

import Backfill.Proofs.Replica.Populated

namespace Backfill

/-- An entry of a table gets a value whatever it had before, or only if it had none. -/
inductive Effect (α : Type)
  | decides (value : Option α)
  | supplies (value : Option α)

namespace Effect

variable {α : Type}

/-- The entry after an effect. -/
def run : Effect α → Option α → Option α
  | .decides value, _ => value
  | .supplies value, entry => entry.or value

/-- The effect that leaves every entry as it is. -/
def idle : Effect α :=
  .supplies none

/-- The effect of a value that may replace what is there, or may not. -/
def put (replaces : Bool) (value : Option α) : Effect α :=
  if replaces then .decides value else .supplies value

/-- Two effects, one after the other. -/
def followedBy : Effect α → Effect α → Effect α
  | _, .decides value => .decides value
  | .decides value, .supplies other => .decides (value.or other)
  | .supplies value, .supplies other => .supplies (value.or other)

/-- Several effects, one after another. -/
def series (effects : List (Effect α)) : Effect α :=
  effects.foldl followedBy idle

@[simp] theorem runIdle (entry : Option α) : idle.run entry = entry := by
  simp [idle, run]

theorem runFollowedBy (first second : Effect α) (entry : Option α) :
    (first.followedBy second).run entry = second.run (first.run entry) := by
  cases second with
  | decides value => cases first <;> rfl
  | supplies value =>
      cases first with
      | decides before => rfl
      | supplies before => simp [followedBy, run, Option.or_assoc]

theorem runSeries (effects : List (Effect α)) (entry : Option α) :
    (series effects).run entry = effects.foldl (fun entry effect => effect.run entry) entry := by
  have general (first : Effect α) :
      (effects.foldl followedBy first).run entry =
        effects.foldl (fun entry effect => effect.run entry) (first.run entry) := by
    induction effects generalizing first with
    | nil => rfl
    | cons effect rest inductionHypothesis =>
        rw [List.foldl_cons, List.foldl_cons, inductionHypothesis, runFollowedBy]
  rw [series, general, runIdle]

/-- A value that is put is there afterwards, or what was there before. -/
theorem runPut (replaces : Bool) (value : α) (entry : Option α) :
    (put replaces (some value)).run entry = entry ∨
      (put replaces (some value)).run entry = some value := by
  cases replaces with
  | true => exact .inr rfl
  | false =>
      cases entry with
      | none => exact .inr rfl
      | some before => exact .inl rfl

/-- An effect that is had already changes nothing. -/
theorem runTwice (effect : Effect α) (entry : Option α) :
    effect.run (effect.run entry) = effect.run entry := by
  cases effect with
  | decides value => rfl
  | supplies value => cases entry <;> simp [run]

end Effect

/-- A record is written to tables, where it may replace what is there, or may not. -/
structure Write where
  replaces : Bool
  record : Record

/-- What writing a record comes to: it is refused, or a row is dropped or put. -/
inductive Tables.Written (update : Bool) (tables : Tables) (record : Record) : Tables → Prop
  | refused (unstorable : record.isStorable = false) : Written update tables record tables
  | blockDropped (block : record.isBlock = true) (storable : record.isStorable = true)
      (deletes : record.operation = .delete) :
      Written update tables record (tables.dropBlock record.keyText)
  | blockPut (block : record.isBlock = true) (storable : record.isStorable = true)
      (keeps : record.operation ≠ .delete) (row : BlockRow)
      (stored : BlockRow.ofRecord record = .ok row) :
      Written update tables record
        (tables.putBlock update record.keyText row record.header.transactions)
  | changeDropped (change : record.isBlock = false) (storable : record.isStorable = true)
      (deletes : record.operation = .delete) :
      Written update tables record (tables.dropChange (.ofRecord record))
  | changePut (change : record.isBlock = false) (storable : record.isStorable = true)
      (keeps : record.operation ≠ .delete) (row : ChangeRow)
      (stored : ChangeRow.ofRecord record = .ok row) :
      Written update tables record (tables.putChange update (.ofRecord record) row)

/-- Whether a record that deletes nothing can be stored depends on the row that it stores. -/
theorem Record.storableOfKept {record : Record} (keeps : record.operation ≠ .delete) :
    record.isStorable =
      if record.isBlock then (BlockRow.ofRecord record).toBool
      else (ChangeRow.ofRecord record).toBool := by
  unfold Record.isStorable
  cases operation : record.operation with
  | delete => exact absurd operation keeps
  | insert => cases record.isBlock <;> rfl
  | upsert => cases record.isBlock <;> rfl

namespace Tables

/-- What applying a record that deletes nothing comes to depends on the row that it stores. -/
theorem applyRecordOfKept (update : Bool) (tables : Tables) {record : Record}
    (keeps : record.operation ≠ .delete) :
    tables.applyRecord update record =
      if record.isBlock then
        (BlockRow.ofRecord record).map fun row =>
          tables.putBlock update record.keyText row record.header.transactions
      else (ChangeRow.ofRecord record).map (tables.putChange update (.ofRecord record)) := by
  unfold applyRecord
  cases operation : record.operation with
  | delete => exact absurd operation keeps
  | insert => cases record.isBlock <;> rfl
  | upsert => cases record.isBlock <;> rfl

theorem writeWritten (update : Bool) (tables : Tables) (record : Record) :
    tables.Written update record (tables.write update record) := by
  cases storable : record.isStorable with
  | false =>
      rw [writeOfRefused update tables storable]
      exact .refused storable
  | true =>
      by_cases deletes : record.operation = .delete
      · unfold write applyRecord
        cases block : record.isBlock with
        | true =>
            rw [deletes]
            exact .blockDropped block storable deletes
        | false =>
            rw [deletes]
            exact .changeDropped block storable deletes
      · have fits := storable
        rw [Record.storableOfKept deletes] at fits
        rw [write, applyRecordOfKept update tables deletes]
        cases block : record.isBlock with
        | true =>
            rw [block] at fits
            cases stored : BlockRow.ofRecord record with
            | ok row => exact .blockPut block storable deletes row stored
            | error cause => simp [stored, Except.toBool] at fits
        | false =>
            rw [block] at fits
            cases stored : ChangeRow.ofRecord record with
            | ok row => exact .changePut block storable deletes row stored
            | error cause => simp [stored, Except.toBool] at fits

end Tables

namespace Write

/-- What a write does to an entry that is its own, or not, if its record stores a value there. -/
def effect {α : Type} (write : Write) (own : Prop) [Decidable own] (value : Option α) :
    Effect α :=
  if own ∧ write.record.isStorable = true then
    if write.record.operation = .delete then .decides none else .put write.replaces value
  else .idle

/-- What a write does to the row of the block with a hash. -/
def onBlock (hash : String) (write : Write) : Effect BlockRow :=
  write.effect (write.record.isBlock = true ∧ write.record.keyText = hash)
    (BlockRow.ofRecord write.record).toOption

/-- What a write does to the transaction at a place of a block. -/
def onTransaction (key : TransactionKey) (write : Write) : Effect Bytes :=
  write.effect (write.record.isBlock = true ∧ write.record.keyText = key.hash)
    write.record.header.transactions[key.index]?

/-- What a write does to the change with an identity. -/
def onChange (key : ChangeKey) (write : Write) : Effect ChangeRow :=
  write.effect (write.record.isBlock = false ∧ .ofRecord write.record = key)
    (ChangeRow.ofRecord write.record).toOption

/-- A write is about a block with a hash and can be made. -/
def Of (hash : String) (write : Write) : Prop :=
  (write.record.isBlock = true ∧ write.record.keyText = hash) ∧ write.record.isStorable = true

instance (hash : String) (write : Write) : Decidable (write.Of hash) :=
  inferInstanceAs (Decidable (_ ∧ _))

/-- A write of a block does something to its row. -/
theorem onBlockOf (hash : String) (write : Write) :
    write.onBlock hash =
      if write.Of hash then
        if write.record.operation = .delete then .decides none
        else .put write.replaces (BlockRow.ofRecord write.record).toOption
      else .idle :=
  rfl

/-- The transactions of the block that a write is about. -/
def transactions (write : Write) : List Bytes :=
  write.record.header.transactions

/-- A write of a block does something to its transactions. -/
theorem onTransactionOf (hash : String) (place : Nat) (write : Write) :
    write.onTransaction ⟨hash, place⟩ =
      if write.Of hash then
        if write.record.operation = .delete then .decides none
        else .put write.replaces write.transactions[place]?
      else .idle :=
  rfl

/-- The row that a write of a block puts. -/
theorem onBlockKept {hash : String} {write : Write} (own : write.Of hash)
    (keeps : write.record.operation ≠ .delete) :
    ∃ row, BlockRow.ofRecord write.record = .ok row ∧
      write.onBlock hash = .put write.replaces (some row) := by
  have storable := own.2
  rw [Record.storableOfKept keeps, own.1.1, if_pos rfl] at storable
  cases stored : BlockRow.ofRecord write.record with
  | error cause => simp [stored, Except.toBool] at storable
  | ok row =>
      refine ⟨row, rfl, ?_⟩
      rw [onBlockOf, if_pos own, if_neg keeps, stored]
      rfl

/-- A write that neither deletes nor replaces leaves a value as it is. -/
theorem effectKeeps {α : Type} {write : Write} (inserts : write.replaces = false)
    (keeps : write.record.operation ≠ .delete) {own : Prop} [Decidable own] {value : Option α}
    {entry : Option α} {found : α} (present : entry = some found) :
    (write.effect own value).run entry = some found := by
  rw [effect, if_neg keeps, inserts, present]
  split <;> rfl

end Write

namespace Tables

variable {κ β : Type} [DecidableEq κ] [Ord κ] [Std.TransOrd κ] [Std.LawfulEqOrd κ]

/-- An entry after a value was put into a map, in the place of another one or not. -/
theorem getPut (replaces : Bool) (map : Std.ExtTreeMap κ β) (key other : κ) (value : β) :
    (if replaces then map.insert key value else map.insertIfNew key value)[other]? =
      if key = other then (Effect.put replaces (some value)).run map[other]?
      else map[other]? := by
  cases replaces with
  | true => simp [Std.ExtTreeMap.getElem?_insert, Effect.put, Effect.run]
  | false =>
      simp only [Bool.false_eq_true, if_false, Std.ExtTreeMap.getElem?_insertIfNew,
        Std.compare_eq_iff_eq, Effect.put, Effect.run]
      by_cases same : key = other
      · subst same
        cases found : map[key]? with
        | none => simp [Std.ExtTreeMap.mem_iff_isSome_getElem?, found]
        | some before => simp [Std.ExtTreeMap.mem_iff_isSome_getElem?, found]
      · simp [same]

theorem getDropTransactions (transactions : Std.ExtTreeMap TransactionKey Bytes) (hash : String)
    (key : TransactionKey) :
    (dropTransactions transactions hash)[key]? =
      if hash = key.hash then none else transactions[key]? := by
  rw [dropTransactions, Std.ExtTreeMap.getElem?_filter']
  by_cases same : hash = key.hash
  · cases transactions[key]? <;> simp [same]
  · cases transactions[key]? <;> simp [same, Ne.symm same]

theorem getAddTransactions (hash : String) (index : Nat) (raws : List Bytes)
    (transactions : Std.ExtTreeMap TransactionKey Bytes) (key : TransactionKey) :
    (addTransactions hash index raws transactions)[key]? =
      if hash = key.hash ∧ index ≤ key.index then transactions[key]?.or raws[key.index - index]?
      else transactions[key]? := by
  induction raws generalizing index transactions with
  | nil => simp [addTransactions]
  | cons raw rest inductionHypothesis =>
      rw [addTransactions, inductionHypothesis]
      have first := getPut false transactions ⟨hash, index⟩ key raw
      simp only [Bool.false_eq_true, if_false, Effect.put, Effect.run] at first
      rw [first]
      obtain ⟨other, place⟩ := key
      simp only [TransactionKey.mk.injEq]
      by_cases same : hash = other
      · subst same
        rcases Nat.lt_trichotomy index place with below | rfl | above
        · have next : place - index = (place - (index + 1)) + 1 := by omega
          simp [Nat.le_of_lt below, Nat.succ_le_of_lt below, Nat.ne_of_lt below, next]
        · simp
        · simp [Nat.not_le_of_lt above, show ¬index + 1 ≤ place by omega, Nat.ne_of_gt above]
      · simp [same]

/-- The tables after a write. -/
def enter (tables : Tables) (write : Write) : Tables :=
  tables.write write.replaces write.record

/-- The tables after writes in order. -/
def enterAll (tables : Tables) (writes : List Write) : Tables :=
  writes.foldl enter tables

theorem getBlockEnter (tables : Tables) (write : Write) (hash : String) :
    (tables.enter write).blocks[hash]? = (write.onBlock hash).run tables.blocks[hash]? := by
  have written := tables.writeWritten write.replaces write.record
  rw [enter]
  generalize tables.write write.replaces write.record = next at written ⊢
  cases written with
  | refused unstorable => simp [Write.onBlock, Write.effect, unstorable]
  | blockDropped block storable deletes =>
      simp only [dropBlock, Std.ExtTreeMap.getElem?_erase, Std.compare_eq_iff_eq]
      by_cases own : write.record.keyText = hash
      · simp [Write.onBlock, Write.effect, block, storable, deletes, own, Effect.run]
      · simp [Write.onBlock, Write.effect, own]
  | blockPut block storable keeps row stored =>
      rw [putBlock, getPut]
      by_cases own : write.record.keyText = hash
      · simp [Write.onBlock, Write.effect, block, storable, keeps, own, stored, Except.toOption]
      · simp [Write.onBlock, Write.effect, own]
  | changeDropped change => simp [dropChange, Write.onBlock, Write.effect, change]
  | changePut change => simp [putChange, Write.onBlock, Write.effect, change]

/-- A row that is there after a write was there before, or it is the row of the record. -/
theorem rowOfEnter {tables : Tables} {write : Write} {hash : String} {row : BlockRow}
    (found : (tables.enter write).blocks[hash]? = some row) :
    tables.blocks[hash]? = some row ∨
      write.Of hash ∧ write.record.operation ≠ .delete ∧
        BlockRow.ofRecord write.record = .ok row := by
  rw [getBlockEnter] at found
  by_cases own : write.Of hash
  · by_cases deletes : write.record.operation = .delete
    · rw [Write.onBlockOf, if_pos own, if_pos deletes] at found
      cases found
    · obtain ⟨fresh, stored, effect⟩ := Write.onBlockKept own deletes
      rw [effect] at found
      rcases Effect.runPut write.replaces fresh tables.blocks[hash]? with same | same
      · rw [same] at found
        exact .inl found
      · rw [same] at found
        obtain rfl := Option.some.inj found
        exact .inr ⟨own, deletes, stored⟩
  · rw [Write.onBlockOf, if_neg own, Effect.runIdle] at found
    exact .inl found

theorem getTransactionEnter (tables : Tables) (write : Write) (key : TransactionKey) :
    (tables.enter write).transactions[key]? =
      (write.onTransaction key).run tables.transactions[key]? := by
  have written := tables.writeWritten write.replaces write.record
  rw [enter]
  generalize tables.write write.replaces write.record = next at written ⊢
  cases written with
  | refused unstorable => simp [Write.onTransaction, Write.effect, unstorable]
  | blockDropped block storable deletes =>
      rw [dropBlock, getDropTransactions]
      by_cases own : write.record.keyText = key.hash
      · simp [Write.onTransaction, Write.effect, block, storable, deletes, own, Effect.run]
      · simp [Write.onTransaction, Write.effect, own]
  | blockPut block storable keeps row stored =>
      rw [putBlock, getAddTransactions]
      by_cases own : write.record.keyText = key.hash
      · cases replaces : write.replaces with
        | true =>
            simp [Write.onTransaction, Write.effect, block, storable, keeps, own, replaces,
              getDropTransactions, Effect.put, Effect.run]
        | false =>
            simp [Write.onTransaction, Write.effect, block, storable, keeps, own, replaces,
              Effect.put, Effect.run]
      · cases write.replaces <;>
          simp [Write.onTransaction, Write.effect, own, getDropTransactions]
  | changeDropped change => simp [dropChange, Write.onTransaction, Write.effect, change]
  | changePut change => simp [putChange, Write.onTransaction, Write.effect, change]

theorem getChangeEnter (tables : Tables) (write : Write) (key : ChangeKey) :
    (tables.enter write).changes[key]? = (write.onChange key).run tables.changes[key]? := by
  have written := tables.writeWritten write.replaces write.record
  rw [enter]
  generalize tables.write write.replaces write.record = next at written ⊢
  cases written with
  | refused unstorable => simp [Write.onChange, Write.effect, unstorable]
  | blockDropped block => simp [dropBlock, Write.onChange, Write.effect, block]
  | blockPut block => simp [putBlock, Write.onChange, Write.effect, block]
  | changeDropped change storable deletes =>
      simp only [dropChange, Std.ExtTreeMap.getElem?_erase, Std.compare_eq_iff_eq]
      by_cases own : ChangeKey.ofRecord write.record = key
      · simp [Write.onChange, Write.effect, change, storable, deletes, own, Effect.run]
      · simp [Write.onChange, Write.effect, own]
  | changePut change storable keeps row stored =>
      rw [putChange, getPut]
      by_cases own : ChangeKey.ofRecord write.record = key
      · simp [Write.onChange, Write.effect, change, storable, keeps, own, stored, Except.toOption]
      · simp [Write.onChange, Write.effect, own]

/-- Two tables with the same entries are the same. -/
theorem extEntries {first second : Tables}
    (blocks : ∀ hash : String, first.blocks[hash]? = second.blocks[hash]?)
    (transactions : ∀ key : TransactionKey, first.transactions[key]? = second.transactions[key]?)
    (changes : ∀ key : ChangeKey, first.changes[key]? = second.changes[key]?) :
    first = second := by
  cases first
  cases second
  congr
  · exact Std.ExtTreeMap.ext_getElem? fun key => blocks key
  · exact Std.ExtTreeMap.ext_getElem? fun key => transactions key
  · exact Std.ExtTreeMap.ext_getElem? fun key => changes key

/-- What writes do to an entry that each of them has an effect on is one effect. -/
theorem getEnterAll {α : Type} (entry : Tables → Option α) (effect : Write → Effect α)
    (enters : ∀ tables write, entry (enter tables write) = (effect write).run (entry tables))
    (tables : Tables) (writes : List Write) :
    entry (tables.enterAll writes) = (Effect.series (writes.map effect)).run (entry tables) := by
  rw [Effect.runSeries, List.foldl_map, enterAll]
  induction writes generalizing tables with
  | nil => rfl
  | cons write rest inductionHypothesis =>
      rw [List.foldl_cons, List.foldl_cons, inductionHypothesis, enters]

/-- Writes that are made twice in a row leave what they left the first time. -/
theorem enterAllTwice (tables : Tables) (writes : List Write) :
    (tables.enterAll writes).enterAll writes = tables.enterAll writes := by
  have twice {α : Type} (entry : Tables → Option α) (effect : Write → Effect α)
      (enters : ∀ tables write, entry (enter tables write) = (effect write).run (entry tables)) :
      entry ((tables.enterAll writes).enterAll writes) = entry (tables.enterAll writes) := by
    rw [getEnterAll entry effect enters, getEnterAll entry effect enters, Effect.runTwice]
  apply extEntries
  · intro hash
    exact twice (fun tables => tables.blocks[hash]?) (Write.onBlock hash)
      fun tables write => tables.getBlockEnter write hash
  · intro key
    exact twice (fun tables => tables.transactions[key]?) (Write.onTransaction key)
      fun tables write => tables.getTransactionEnter write key
  · intro key
    exact twice (fun tables => tables.changes[key]?) (Write.onChange key)
      fun tables write => tables.getChangeEnter write key

theorem enterAllAppend (tables : Tables) (first second : List Write) :
    tables.enterAll (first ++ second) = (tables.enterAll first).enterAll second :=
  List.foldl_append

/-- Writes that were interrupted can be made again from the first one on. -/
theorem enterAllResumed (tables : Tables) (first second : List Write) :
    (tables.enterAll first).enterAll (first ++ second) = tables.enterAll (first ++ second) := by
  rw [enterAllAppend, enterAllTwice, ← enterAllAppend]

theorem enterAllOfRecords (update : Bool) (tables : Tables) (records : List Record) :
    tables.enterAll (records.map (Write.mk update)) = tables.writeAll update records :=
  List.foldl_map

end Tables

namespace Replica

/-- The replica after records were applied one after another, each as a batch of its own; a record
that is refused is left out. -/
def applyEach (update : Bool) (records : List Record) (replica : Replica) : Replica :=
  records.foldl (fun replica record => (replica.apply update [record]).2) replica

/-- Records that are applied one after another are written to the working copy. -/
theorem applyEachEq (update : Bool) (records : List Record) (replica : Replica) :
    replica.applyEach update records =
      { replica with working := replica.working.map (·.writeAll update records) } := by
  induction records generalizing replica with
  | nil => cases replica with | mk committed working => cases working <;> rfl
  | cons record rest inductionHypothesis =>
      rw [applyEach, List.foldl_cons, ← applyEach, inductionHypothesis]
      obtain ⟨committed, working⟩ := replica
      cases working with
      | none => rfl
      | some tables =>
          simp only [apply, Tables.applyRecords, List.foldlM_cons, List.foldlM_nil]
          cases storable : record.isStorable with
          | true =>
              rw [Tables.applyRecordOk update tables storable]
              rfl
          | false =>
              obtain ⟨cause, refused⟩ := Tables.applyRecordError update tables storable
              rw [refused]
              simp [Tables.writeAll, Tables.writeOfRefused update tables storable, bind,
                Except.bind]

/-- It does no harm to apply records again whose application was interrupted: the tables are the
same as if they had been applied once without interruption. -/
theorem appliedAgain (update : Bool) (records : List Record) (count : Nat) :
    (∀ tables : Tables, (tables.writeAll update (records.take count)).writeAll update records =
        tables.writeAll update records) ∧
      ∀ replica : Replica,
        (replica.applyEach update (records.take count)).applyEach update records =
          replica.applyEach update records := by
  have again (tables : Tables) : (tables.writeAll update (records.take count)).writeAll update
      records = tables.writeAll update records := by
    have resumed := tables.enterAllResumed ((records.take count).map (Write.mk update))
      ((records.drop count).map (Write.mk update))
    rw [← List.map_append, List.take_append_drop] at resumed
    rwa [Tables.enterAllOfRecords, Tables.enterAllOfRecords, Tables.enterAllOfRecords] at resumed
  constructor
  · exact again
  · intro replica
    rw [applyEachEq, applyEachEq, applyEachEq]
    cases replica.working with
    | none => rfl
    | some tables => simp [again]

end Replica

end Backfill
