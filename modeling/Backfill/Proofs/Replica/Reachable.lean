/-
This file shows that every height in a replica fits its column, whatever was done to the replica.
-/

import Backfill.Proofs.Replica.Missing
import Backfill.Proofs.Replica.Transcript

namespace Backfill

/-- Whether the heights of all blocks fit their column. -/
def Tables.Fits (tables : Tables) : Prop :=
  ∀ height, tables.Populated height → height ≤ maxSigned

/-- A replica is opened with tables that others may have filled, and then changed in any order. -/
inductive Replica.Reachable : Replica → Prop
  | opened (tables : Tables) (fits : tables.Fits) : Reachable (.ofTables tables)
  | begin {replica : Replica} (reachable : Reachable replica) : Reachable replica.begin.2
  | apply {replica : Replica} (update : Bool) (records : List Record)
      (reachable : Reachable replica) : Reachable (replica.apply update records).2
  | commit {replica : Replica} (reachable : Reachable replica) : Reachable replica.commit.2
  | rollback {replica : Replica} (reachable : Reachable replica) : Reachable replica.rollback.2

namespace Tables

variable {tables next : Tables} {update : Bool} {record : Record}

theorem fitsApplyRecord (fits : tables.Fits)
    (applied : tables.applyRecord update record = .ok next) : next.Fits := by
  have written : next = tables.enter ⟨update, record⟩ := by
    rw [enter, write, applied]
  rintro height ⟨hash, row, found, rfl⟩
  rw [written] at found
  rcases rowOfEnter found with before | ⟨_, _, stored⟩
  · exact fits _ ⟨hash, row, before, rfl⟩
  · obtain ⟨same, small⟩ := heightOfRow stored
    rw [same]
    exact Int.ofNat_le.mpr small

theorem fitsApplyRecords {records : List Record} (fits : tables.Fits)
    (applied : tables.applyRecords update records = .ok next) : next.Fits := by
  induction records generalizing tables with
  | nil =>
      obtain rfl := Except.ok.inj applied
      exact fits
  | cons record rest inductionHypothesis =>
      rw [applyRecords, List.foldlM_cons] at applied
      cases first : tables.applyRecord update record with
      | error cause =>
          rw [first] at applied
          cases applied
      | ok middle =>
          rw [first] at applied
          exact inductionHypothesis (fitsApplyRecord fits first) applied

theorem fitsGapped : gapped.Fits := by
  intro height populated
  rcases (populatedGapped height).mp populated with rfl | rfl
  · decide
  · decide

/-- A missing height lies below one that fits its column. -/
theorem missingFits {fromGenesis : Bool} {height : Nat} (fits : tables.Fits)
    (missing : tables.Missing fromGenesis height) : height ≤ maxSigned := by
  obtain ⟨_, ⟨above, less, populated⟩, _⟩ := missing
  have bound := fits above populated
  omega

/-- Every height of a block that writes add is natural and fits its column. -/
theorem populatedOfEnterAll {writes : List Write} {height : Int}
    (populated : (tables.enterAll writes).Populated height) :
    tables.Populated height ∨ 0 ≤ height ∧ height ≤ maxSigned := by
  induction writes generalizing tables with
  | nil => exact .inl populated
  | cons write rest inductionHypothesis =>
      rcases inductionHypothesis populated with ⟨hash, row, found, rfl⟩ | added
      · rcases rowOfEnter found with before | ⟨_, _, stored⟩
        · exact .inl ⟨hash, row, before, rfl⟩
        · obtain ⟨same, small⟩ := heightOfRow stored
          rw [same]
          exact .inr ⟨Int.natCast_nonneg _, Int.ofNat_le.mpr small⟩
      · exact .inr added

end Tables

namespace Replica

/-- A replica that was opened with blocks whose heights are natural and fit their column, and was
called in any order since. -/
def Used (replica : Replica) : Prop :=
  ∃ (tables : Tables) (calls : List SinkCall), tables.Natural ∧ tables.Fits ∧
    replica = store.makeAll calls (.ofTables tables)

/-- All heights in such a replica are natural and fit their column. -/
theorem visibleOfUsed {replica : Replica} (used : replica.Used) :
    replica.visible.Natural ∧ replica.visible.Fits := by
  obtain ⟨tables, calls, natural, fits, rfl⟩ := used
  rw [Transcript.replicaOfCalls, Transcript.visibleReplica]
  constructor
  · intro height populated
    rcases Tables.populatedOfEnterAll populated with before | added
    · exact natural height before
    · exact added.1
  · intro height populated
    rcases Tables.populatedOfEnterAll populated with before | added
    · exact fits height before
    · exact added.2

/-- Heights that fit their column go on to do so. -/
theorem fitsOfReachable {replica : Replica} (reachable : replica.Reachable) :
    replica.committed.Fits ∧ ∀ tables, replica.working = some tables → tables.Fits := by
  induction reachable with
  | opened tables fits => exact ⟨fits, by simp [ofTables]⟩
  | begin _ inductionHypothesis =>
      obtain ⟨durable, working⟩ := inductionHypothesis
      unfold begin
      split
      · exact ⟨durable, working⟩
      · refine ⟨durable, ?_⟩
        rintro _ ⟨⟩
        exact durable
  | apply update records _ inductionHypothesis =>
      obtain ⟨durable, working⟩ := inductionHypothesis
      unfold apply
      split
      · exact ⟨durable, working⟩
      · rename_i tables present
        split
        · exact ⟨durable, working⟩
        · rename_i next applied
          refine ⟨durable, ?_⟩
          rintro _ ⟨⟩
          exact Tables.fitsApplyRecords (working tables present) applied
  | commit _ inductionHypothesis =>
      obtain ⟨durable, working⟩ := inductionHypothesis
      unfold commit
      split
      · exact ⟨durable, working⟩
      · rename_i tables present
        exact ⟨working tables present, by simp [ofTables]⟩
  | rollback _ inductionHypothesis => exact ⟨inductionHypothesis.1, by simp [rollback, ofTables]⟩

/-- What a reachable replica answers from fits its columns. -/
theorem visibleFits {replica : Replica} (reachable : replica.Reachable) : replica.visible.Fits := by
  obtain ⟨durable, working⟩ := fitsOfReachable reachable
  unfold visible
  cases present : replica.working with
  | none => exact durable
  | some tables => exact working tables present

end Replica

end Backfill
