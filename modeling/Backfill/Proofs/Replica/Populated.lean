/-
This file shows which heights of a replica have a block after records were written, and which rows
stay as they are.
-/

import Backfill.Proofs.Acquisition.Calls
import Backfill.Proofs.Height.Sorted
import Backfill.Replica.Basic
import Mathlib.Data.Int.Order.Basic

namespace Backfill

/-- Whether a replica, of whatever content, can store what a record says. -/
def Record.isStorable (record : Record) : Bool :=
  match record.isBlock, record.operation with
  | _, .delete => true
  | true, _ => (BlockRow.ofRecord record).toBool
  | false, _ => (ChangeRow.ofRecord record).toBool

namespace Tables

variable {tables next : Tables} {record : Record} {update : Bool}

/-- Whether a height has a block. -/
def Populated (tables : Tables) (height : Int) : Prop :=
  ∃ (hash : String) (row : BlockRow), tables.blocks[hash]? = some row ∧ row.height = height

/-- The tables after a record, which are as before if the record cannot be stored. -/
def write (update : Bool) (tables : Tables) (record : Record) : Tables :=
  match tables.applyRecord update record with
  | .ok next => next
  | .error _ => tables

/-- The tables after records in order, without those that cannot be stored. -/
def writeAll (update : Bool) (tables : Tables) (records : List Record) : Tables :=
  records.foldl (write update) tables

theorem writeAllAppend (update : Bool) (tables : Tables) (first second : List Record) :
    tables.writeAll update (first ++ second) =
      (tables.writeAll update first).writeAll update second :=
  List.foldl_append

/-- A record is applied if it can be stored. -/
theorem applyRecordOk (update : Bool) (tables : Tables) (storable : record.isStorable = true) :
    tables.applyRecord update record = .ok (tables.write update record) := by
  unfold write
  cases applied : tables.applyRecord update record with
  | ok next => rfl
  | error cause =>
      unfold applyRecord at applied
      unfold Record.isStorable at storable
      split at applied
      · cases applied
      · cases row : BlockRow.ofRecord record with
        | ok row => simp [row, Except.map] at applied
        | error fault => simp_all [Except.toBool]
      · cases applied
      · cases row : ChangeRow.ofRecord record with
        | ok row => simp [row, Except.map] at applied
        | error fault => simp_all [Except.toBool]

/-- A record that cannot be stored is refused. -/
theorem applyRecordError (update : Bool) (tables : Tables) (refused : record.isStorable = false) :
    ∃ cause, tables.applyRecord update record = .error cause := by
  cases applied : tables.applyRecord update record with
  | error cause => exact ⟨cause, rfl⟩
  | ok next =>
      unfold applyRecord at applied
      unfold Record.isStorable at refused
      split at applied
      · simp_all
      · cases row : BlockRow.ofRecord record with
        | ok row => simp_all [Except.toBool]
        | error fault => simp [row, Except.map] at applied
      · simp_all
      · cases row : ChangeRow.ofRecord record with
        | ok row => simp_all [Except.toBool]
        | error fault => simp [row, Except.map] at applied

theorem writeOfRefused (update : Bool) (tables : Tables) (refused : record.isStorable = false) :
    tables.write update record = tables := by
  obtain ⟨cause, applied⟩ := applyRecordError update tables refused
  rw [write, applied]

/-- A batch is applied if all its records can be stored. -/
theorem applyRecordsOk {records : List Record}
    (applied : tables.applyRecords update records = .ok next) :
    next = tables.writeAll update records ∧ ∀ record ∈ records, record.isStorable = true := by
  induction records generalizing tables with
  | nil =>
      obtain rfl := Except.ok.inj applied
      exact ⟨rfl, by simp⟩
  | cons record rest inductionHypothesis =>
      rw [applyRecords, List.foldlM_cons] at applied
      cases storable : record.isStorable with
      | false =>
          obtain ⟨cause, refused⟩ := applyRecordError update tables storable
          simp [refused, bind, Except.bind] at applied
      | true =>
          rw [applyRecordOk update tables storable] at applied
          obtain ⟨same, others⟩ := inductionHypothesis applied
          refine ⟨same, fun other member => ?_⟩
          rcases List.mem_cons.mp member with rfl | later
          · exact storable
          · exact others other later

theorem applyRecordsError {records : List Record} {cause : ReplicaError}
    (refused : tables.applyRecords update records = .error cause) :
    ∃ record ∈ records, record.isStorable = false := by
  induction records generalizing tables with
  | nil => cases refused
  | cons record rest inductionHypothesis =>
      cases storable : record.isStorable with
      | false => exact ⟨record, List.mem_cons_self, storable⟩
      | true =>
          rw [applyRecords, List.foldlM_cons, applyRecordOk update tables storable] at refused
          obtain ⟨other, member, unstorable⟩ := inductionHypothesis refused
          exact ⟨other, List.mem_cons_of_mem _ member, unstorable⟩

/-- The row of a block record has the height of the record. -/
theorem heightOfRow {row : BlockRow} (stored : BlockRow.ofRecord record = .ok row) :
    row.height = record.height.toNat ∧ record.height.toNat ≤ maxSigned := by
  unfold BlockRow.ofRecord at stored
  simp only [bind, Except.bind, signedColumn] at stored
  split at stored
  · cases stored
  · rename_i column fits
    split at stored
    · cases stored
    · obtain rfl := Except.ok.inj stored
      split at fits
      · rename_i small
        obtain rfl := Except.ok.inj fits
        exact ⟨rfl, small⟩
      · cases fits

/-- A height has a block if one of the rows has the height. -/
theorem populatedIff (tables : Tables) (height : Int) :
    tables.Populated height ↔ height ∈ tables.blocks.toList.map fun entry => entry.2.height := by
  rw [List.mem_map]
  constructor
  · rintro ⟨hash, row, found, rfl⟩
    exact ⟨(hash, row), Std.ExtTreeMap.mem_toList_iff_getElem?_eq_some.mpr found, rfl⟩
  · rintro ⟨⟨hash, row⟩, member, rfl⟩
    exact ⟨hash, row, Std.ExtTreeMap.mem_toList_iff_getElem?_eq_some.mp member, rfl⟩

theorem memSignedHeights (tables : Tables) (height : Int) :
    height ∈ tables.signedHeights ↔ tables.Populated height := by
  rw [signedHeights, memDropRepeats, List.mem_mergeSort, populatedIff]

/-- The heights of the blocks ascend, each once. -/
theorem signedHeightsAscend (tables : Tables) : tables.signedHeights.Pairwise (· < ·) := by
  refine dropRepeatsAscend ?_
  have sorted := @List.pairwise_mergeSort Int (fun first second => decide (first ≤ second))
    (by simp only [decide_eq_true_eq]; omega)
    (by simp only [Bool.or_eq_true, decide_eq_true_eq]; omega)
    (tables.blocks.toList.map fun entry => entry.2.height)
  simpa using sorted

/-- Tables answer whether a height that fits its column has a block. -/
theorem holdsIff (tables : Tables) {height : UInt64} (fits : height.toNat ≤ maxSigned) :
    ∃ present, tables.holds height = .ok present ∧
      (present = true ↔ tables.Populated height.toNat) := by
  refine ⟨_, by simp only [holds, signedColumn, fits, if_true]; rfl, ?_⟩
  rw [Bool.not_eq_true', List.isEmpty_eq_false_iff_exists_mem, populatedIff, List.mem_map]
  constructor
  · rintro ⟨entry, member⟩
    obtain ⟨listed, same⟩ := List.mem_filter.mp member
    exact ⟨entry, listed, of_decide_eq_true same⟩
  · rintro ⟨entry, listed, same⟩
    exact ⟨entry, List.mem_filter.mpr ⟨listed, decide_eq_true same⟩⟩

end Tables

namespace Replica

/-- Records that are applied are written to the working copy. -/
theorem nextOfApply {state next : Replica} {update : Bool} {batch : List Record}
    (applied : state.apply update batch = (.ok (), next)) :
    ∃ tables, state.working = some tables ∧
      next = ⟨state.committed, some (tables.writeAll update batch)⟩ ∧
        ∀ record ∈ batch, record.isStorable = true := by
  unfold apply at applied
  split at applied
  · cases applied
  · rename_i tables working
    split at applied
    · cases applied
    · rename_i last written
      obtain rfl := (Prod.mk.inj applied).2
      obtain ⟨rfl, storable⟩ := Tables.applyRecordsOk written
      exact ⟨tables, working, rfl, storable⟩

theorem workingOfApply {state next : Replica} {update : Bool} {batch : List Record}
    (applied : state.apply update batch = (.ok (), next)) :
    next.visible = state.visible.writeAll update batch ∧ next.working ≠ none ∧
      next.committed = state.committed ∧ ∀ record ∈ batch, record.isStorable = true := by
  obtain ⟨tables, working, rfl, storable⟩ := nextOfApply applied
  refine ⟨?_, by simp, rfl, storable⟩
  rw [visible, visible, working]
  rfl

/-- A batch that is refused changes nothing, and some record of it cannot be stored. -/
theorem sameOfRefusal {state next : Replica} {update : Bool} {batch : List Record}
    {cause : ReplicaError} (refused : state.apply update batch = (.error cause, next)) :
    next = state ∧
      (state.working ≠ none → ∃ record ∈ batch, record.isStorable = false) := by
  unfold apply at refused
  split at refused
  · rename_i closed
    exact ⟨(Prod.mk.inj refused).2.symm, fun busy => absurd closed busy⟩
  · split at refused
    · rename_i fault written
      exact ⟨(Prod.mk.inj refused).2.symm, fun _ => Tables.applyRecordsError written⟩
    · cases refused

end Replica

end Backfill
