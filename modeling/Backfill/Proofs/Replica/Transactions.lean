/-
This file shows which transactions of a block are stored after writes that do not replace what is
there. Such a write keeps the row of a block, and every transaction of it, but it adds those of its
own transactions for whose places there is none yet.
-/

import Backfill.Proofs.Replica.Transcript
import Backfill.Proofs.Replica.Written

namespace Backfill

namespace Tables

section Listed

variable {tables first second : Tables} {hash : String}

/-- The stored transactions of a block with their places. -/
def entriesOf (tables : Tables) (hash : String) : List (TransactionKey × Bytes) :=
  tables.transactions.toList.filter fun entry => entry.1.hash = hash

theorem memEntriesOf (tables : Tables) (hash : String) (key : TransactionKey) (raw : Bytes) :
    (key, raw) ∈ tables.entriesOf hash ↔
      key.hash = hash ∧ tables.transactions[key]? = some raw := by
  rw [entriesOf, List.mem_filter, Std.ExtTreeMap.mem_toList_iff_getElem?_eq_some, and_comm,
    decide_eq_true_iff]

/-- The places of a block ascend. -/
theorem entriesOfAscend (tables : Tables) (hash : String) :
    (tables.entriesOf hash).Pairwise fun lower upper => compare lower.1 upper.1 = .lt :=
  Std.ExtTreeMap.ordered_keys_toList.filter _

theorem nodupOfAscend {entries : List (TransactionKey × Bytes)}
    (ascend : entries.Pairwise fun lower upper => compare lower.1 upper.1 = .lt) :
    entries.Nodup := by
  apply ascend.imp
  intro lower upper below same
  rw [same, Std.ReflOrd.compare_self] at below
  cases below

/-- The transactions of a block are told by their places. -/
theorem entriesOfEq {entries : List (TransactionKey × Bytes)}
    (ascend : entries.Pairwise fun lower upper => compare lower.1 upper.1 = .lt)
    (members : ∀ key raw, (key, raw) ∈ entries ↔
      key.hash = hash ∧ tables.transactions[key]? = some raw) :
    tables.entriesOf hash = entries := by
  have perm : (tables.entriesOf hash).Perm entries := by
    rw [List.perm_ext_iff_of_nodup (nodupOfAscend (tables.entriesOfAscend hash))
      (nodupOfAscend ascend)]
    rintro ⟨key, raw⟩
    rw [memEntriesOf, members]
  apply perm.eq_of_pairwise _ (tables.entriesOfAscend hash) ascend
  intro lower upper _ _ below above
  rw [Std.OrientedOrd.eq_swap, above] at below
  cases below

/-- The transactions of a block are those of other tables if the same ones lie at its places. -/
theorem transactionsOfCongr
    (same : ∀ place, first.transactions[(⟨hash, place⟩ : TransactionKey)]? =
      second.transactions[(⟨hash, place⟩ : TransactionKey)]?) :
    first.transactionsOf hash = second.transactionsOf hash := by
  have entries : first.entriesOf hash = second.entriesOf hash := by
    apply entriesOfEq (second.entriesOfAscend hash)
    rintro ⟨other, place⟩ raw
    rw [memEntriesOf]
    apply and_congr_right
    rintro rfl
    rw [same]
  exact congrArg (List.map Prod.snd) entries

/-- Tables that keep every transaction of other ones and have one more of a block list more
transactions of that block. -/
theorem transactionsOfMore
    (kept : ∀ (key : TransactionKey) (raw : Bytes),
      first.transactions[key]? = some raw → second.transactions[key]? = some raw)
    {place : Nat} {raw : Bytes}
    (absent : first.transactions[(⟨hash, place⟩ : TransactionKey)]? = none)
    (present : second.transactions[(⟨hash, place⟩ : TransactionKey)]? = some raw) :
    (first.transactionsOf hash).length < (second.transactionsOf hash).length := by
  have fresh : ((⟨hash, place⟩ : TransactionKey), raw) ∉ first.entriesOf hash := by
    rw [memEntriesOf, absent]
    simp
  have once := List.nodup_cons.mpr ⟨fresh, nodupOfAscend (first.entriesOfAscend hash)⟩
  have inside : (((⟨hash, place⟩ : TransactionKey), raw) :: first.entriesOf hash) ⊆
      second.entriesOf hash := by
    rintro ⟨key, found⟩ member
    rw [memEntriesOf]
    rcases List.mem_cons.mp member with same | before
    · obtain ⟨rfl, rfl⟩ := Prod.mk.inj same
      exact ⟨rfl, present⟩
    · obtain ⟨own, stored⟩ := (memEntriesOf first hash key found).mp before
      exact ⟨own, kept key found stored⟩
  have shorter := once.length_le_of_subset inside
  unfold transactionsOf
  rw [List.length_map, List.length_map, ← entriesOf, ← entriesOf]
  exact shorter

end Listed

section Inserted

variable {record : Record} {hash : String}

/-- What lies at the place of a block after a record that deletes and replaces nothing: what was
there, or else the record's own transaction if it is about the block. -/
theorem getTransactionInserted (tables : Tables) (keeps : record.operation ≠ .delete)
    (key : TransactionKey) :
    (tables.write false record).transactions[key]? =
      tables.transactions[key]?.or
        (if record.isStorable = true ∧ record.isBlock = true ∧ record.keyText = key.hash then
          record.header.transactions[key.index]?
        else none) := by
  have entered := tables.getTransactionEnter ⟨false, record⟩ key
  rw [enter] at entered
  rw [entered, Write.onTransaction, Write.effect, if_neg keeps]
  by_cases own : record.isStorable = true ∧ record.isBlock = true ∧ record.keyText = key.hash
  · rw [if_pos own, if_pos ⟨own.2, own.1⟩]
    rfl
  · rw [if_neg own, if_neg fun other => own ⟨other.2, other.1⟩, Effect.runIdle, Option.or_none]

/-- The places of the transactions of a record are taken once the record is written, if they were
not before, and they stay taken. -/
theorem takenOfInserted (tables : Tables) {before after : List Record}
    (keep : ∀ other ∈ before ++ record :: after, other.operation ≠ .delete)
    (storable : record.isStorable = true) (block : record.isBlock = true)
    (own : record.keyText = hash) {place : Nat}
    (below : place < record.header.transactions.length) :
    ∃ raw, (tables.writeAll false (before ++ record :: after)).transactions[
      (⟨hash, place⟩ : TransactionKey)]? = some raw := by
  have keeps := keep record (List.mem_append_right _ List.mem_cons_self)
  have later : ((tables.writeAll false before).write false record).Within
      (((tables.writeAll false before).write false record).writeAll false after) :=
    withinWriteAll fun other inside =>
      keep other (List.mem_append_right _ (List.mem_cons_of_mem _ inside))
  have written := getTransactionInserted (tables.writeAll false before) keeps ⟨hash, place⟩
  rw [if_pos ⟨storable, block, own⟩, List.getElem?_eq_getElem below] at written
  rw [writeAllAppend]
  cases found : (tables.writeAll false before).transactions[(⟨hash, place⟩ : TransactionKey)]? with
  | some raw =>
      rw [found] at written
      exact ⟨raw, later.transactions _ _ written⟩
  | none =>
      rw [found] at written
      exact ⟨_, later.transactions _ _ written⟩

/-- A record with transactions only for places that are taken leaves all of them as they are. -/
theorem getTransactionKept (tables : Tables) (keeps : record.operation ≠ .delete)
    (taken : record.isBlock = true → record.keyText = hash →
      ∀ place < record.header.transactions.length,
        (⟨hash, place⟩ : TransactionKey) ∈ tables.transactions) (place : Nat) :
    (tables.write false record).transactions[(⟨hash, place⟩ : TransactionKey)]? =
      tables.transactions[(⟨hash, place⟩ : TransactionKey)]? := by
  rw [getTransactionInserted tables keeps]
  split
  · rename_i own
    by_cases below : place < record.header.transactions.length
    · have there := taken own.2.1 own.2.2 place below
      rw [Std.ExtTreeMap.mem_iff_isSome_getElem?] at there
      obtain ⟨raw, found⟩ := Option.isSome_iff_exists.mp there
      rw [found]
      rfl
    · rw [List.getElem?_eq_none (Nat.le_of_not_lt below), Option.or_none]
  · exact Option.or_none

/-- Storable records that delete and replace nothing leave the transactions of a block as they are
exactly if each of them that is about the block has transactions only for places that are taken. -/
theorem transactionsOfInserted (tables : Tables) {records : List Record}
    (keep : ∀ record ∈ records, record.operation ≠ .delete)
    (storable : ∀ record ∈ records, record.isStorable = true) (hash : String) :
    (tables.writeAll false records).transactionsOf hash = tables.transactionsOf hash ↔
      ∀ record ∈ records, record.isBlock = true → record.keyText = hash →
        ∀ place < record.header.transactions.length,
          (⟨hash, place⟩ : TransactionKey) ∈ tables.transactions := by
  constructor
  · intro same record member block own place below
    by_contra absent
    rw [Std.ExtTreeMap.mem_iff_isSome_getElem?, Option.not_isSome_iff_eq_none] at absent
    obtain ⟨before, after, rfl⟩ := List.append_of_mem member
    obtain ⟨raw, present⟩ := takenOfInserted tables keep (storable record member) block own below
    have more := transactionsOfMore (withinWriteAll keep).transactions absent present
    rw [same] at more
    exact Nat.lt_irrefl _ more
  · intro taken
    apply transactionsOfCongr
    induction records generalizing tables with
    | nil =>
        intro place
        rfl
    | cons record rest inductionHypothesis =>
        have first := getTransactionKept tables (keep record List.mem_cons_self)
          (taken record List.mem_cons_self)
        intro place
        rw [writeAll, List.foldl_cons, ← writeAll, ← first place]
        apply inductionHypothesis
        · intro other inside
          exact keep other (List.mem_cons_of_mem _ inside)
        · intro other inside
          exact storable other (List.mem_cons_of_mem _ inside)
        · intro other inside block own index below
          rw [Std.ExtTreeMap.mem_iff_isSome_getElem?, first,
            ← Std.ExtTreeMap.mem_iff_isSome_getElem?]
          exact taken other (List.mem_cons_of_mem _ inside) block own index below

end Inserted

section Laid

variable {tables : Tables} {hash : String} {raws : List Bytes}

/-- The transactions of a block lie at its places from zero on, in the order of a list. -/
def Laid (tables : Tables) (hash : String) (raws : List Bytes) : Prop :=
  ∀ place, tables.transactions[(⟨hash, place⟩ : TransactionKey)]? = raws[place]?

theorem compareOfPlaces (hash : String) {lower upper : Nat} (below : lower < upper) :
    compare (⟨hash, lower⟩ : TransactionKey) ⟨hash, upper⟩ = .lt := by
  show compareLex (compareOn TransactionKey.hash) (compareOn TransactionKey.index) _ _ = _
  simp [compareLex, compareOn, Nat.compare_eq_lt.mpr below]

theorem transactionsOfLaid (laid : tables.Laid hash raws) : tables.transactionsOf hash = raws := by
  let entries := raws.zipIdx.map fun entry => ((⟨hash, entry.2⟩ : TransactionKey), entry.1)
  have ascend : entries.Pairwise fun lower upper => compare lower.1 upper.1 = .lt := by
    have places : (raws.zipIdx.map Prod.snd).Pairwise (· < ·) := by
      rw [List.zipIdx_map_snd]
      exact List.pairwise_lt_range'
    rw [List.pairwise_map] at places ⊢
    exact places.imp fun below => compareOfPlaces hash below
  have listed : tables.entriesOf hash = entries := by
    apply entriesOfEq ascend
    rintro ⟨other, place⟩ raw
    simp only [entries, List.mem_map, Prod.exists, List.mem_zipIdx_iff_getElem?, Prod.mk.injEq,
      TransactionKey.mk.injEq]
    constructor
    · rintro ⟨found, index, listed, ⟨rfl, rfl⟩, rfl⟩
      exact ⟨rfl, (laid index).trans listed⟩
    · rintro ⟨rfl, stored⟩
      exact ⟨raw, place, (laid place).symm.trans stored, ⟨rfl, rfl⟩, rfl⟩
  have values : entries.map Prod.snd = raws := by
    rw [List.map_map]
    exact List.zipIdx_map_fst 0 raws
  rw [← values, ← listed]
  rfl

end Laid

end Tables

end Backfill
