/-
This file shows that a run without a log fills what it can and disturbs nothing, and that a further
run has nothing left to do if no range failed.
-/

import Backfill.Proofs.Repair.Requests
import Backfill.Proofs.Repair.Complete

namespace Backfill

theorem RangeOutcome.repairedIff (outcome : RangeOutcome) : outcome.isRepaired = true ↔
    ∃ emitted applied commits, outcome = .repaired emitted applied commits := by
  constructor
  · intro repaired
    cases outcome with
    | repaired emitted applied commits => exact ⟨emitted, applied, commits, rfl⟩
    | skipped height => cases repaired
    | failed error => cases repaired
  · rintro ⟨emitted, applied, commits, rfl⟩
    rfl

namespace Repairer

open Committer

variable {σ : Type} {repairer : Repairer σ} {replica : σ → Replica} {before after : Committer σ}
  {reports : List RangeReport}

/-- A record of the fetcher that a range handed on, and that the replica can store. -/
structure Accepted (repairer : Repairer σ) (report : RangeReport) (record : Record) : Prop where
  handed : record ∈ repairer.handedOn report.planned
  fetched : repairer.fetcher.recordAt? record.height.toNat = some record
  inside : record.height.toNat ∈ report.planned.range
  storable : record.isStorable = true

/-- Every row stays as it is. -/
theorem withinOfProgress (unlogged : repairer.log = none)
    (fresh : repairer.Fresh (replica before.sink).visible)
    (progress : repairer.Progress replica before reports after) :
    (replica before.sink).visible.Within (replica after.sink).visible := by
  rw [progress.written.visible]
  exact withinOfFetches fresh (fetchesOfProgress unlogged fresh progress (List.Subset.refl _))

/-- The heights with a block after a run are those from before it and those of the records that were
accepted. -/
theorem populatedOfProgress (unlogged : repairer.log = none)
    (fresh : repairer.Fresh (replica before.sink).visible)
    (progress : repairer.Progress replica before reports after)
    (attempted : ∀ report ∈ reports, report.outcome.isSkipped = false) (height : Int) :
    (replica after.sink).visible.Populated height ↔
      (replica before.sink).visible.Populated height ∨
        ∃ report ∈ reports, ∃ record, repairer.Accepted report record ∧
          height = record.height.toNat := by
  rw [progress.written.visible, populatedOfFetches fresh
    (fetchesOfProgress unlogged fresh progress (List.Subset.refl _))]
  refine or_congr_right ⟨?_, ?_⟩
  · rintro ⟨record, member, same, storable⟩
    obtain ⟨report, listed, written⟩ := memWrittenForAll member
    have missing := missingOfProgress progress listed
    obtain ⟨inside, found⟩ := fetchedOfToWrite unlogged fresh missing written
    rw [toWriteUnlogged unlogged fresh missing] at written
    exact ⟨report, listed, record, ⟨written, found, inside, storable⟩, same⟩
  · rintro ⟨report, listed, record, accepted, same⟩
    refine ⟨record, List.mem_flatMap.mpr ⟨report, listed, ?_⟩, same, accepted.storable⟩
    rw [writtenFor, attempted report listed,
      toWriteUnlogged unlogged fresh (missingOfProgress progress listed)]
    exact accepted.handed

/-- Every record of a repaired range is accepted, and there is one for each of its heights. -/
theorem acceptedOfRepaired (unlogged : repairer.log = none)
    (fresh : repairer.Fresh (replica before.sink).visible)
    (progress : repairer.Progress replica before reports after) {report : RangeReport}
    (listed : report ∈ reports) (repaired : report.outcome.isRepaired = true) {height : Nat}
    (inside : height ∈ report.planned.range) :
    ∃ record, repairer.Accepted report record ∧ height = record.height.toNat := by
  obtain ⟨emitted, applied, commits, outcome⟩ := (RangeOutcome.repairedIff _).mp repaired
  have missing := missingOfProgress progress listed
  have honest : repairer.fetcher.Honest report.planned.range :=
    fun place within record found => (fresh.upserts place record (missing place within) found).2.2
  obtain ⟨verdict, storable⟩ := progress.written.repaired report listed _ _ _ outcome
  have once := (repairer.acquires report.planned).once honest _ verdict
  have handed : height ∈ Record.heights (repairer.handedOn report.planned) :=
    once.mem_iff.mpr ((report.planned.range.memHeights height).mpr inside)
  obtain ⟨record, member, rfl⟩ := List.mem_map.mp handed
  have found := (fetchedOfHandedOn unlogged fresh missing member).2
  rw [toWriteUnlogged unlogged fresh missing] at storable
  exact ⟨record, ⟨member, found, inside, storable record member⟩, rfl⟩

/-- If every range was repaired then nothing that was missing is missing afterwards. -/
theorem nothingMissing (unlogged : repairer.log = none)
    (fresh : repairer.Fresh (replica before.sink).visible)
    (settled : repairer.Reports replica before reports after)
    (attempted : ∀ report ∈ reports, report.outcome.isSkipped = false)
    (repaired : ∀ report ∈ reports, report.outcome.isRepaired = true) :
    Replica.store.detectGaps repairer.settings.fromGenesis (replica after.sink) = .ok [] := by
  have progress := settled.toProgress
  have fetches := fetchesOfProgress unlogged fresh progress (List.Subset.refl _)
  have fills := fillsOfFetches fresh fetches
  rw [← settled.written.visible] at fills
  refine Replica.detectGapsIff.mpr ⟨Tables.naturalOfFills fills settled.natural, .nil, ?_⟩
  intro height
  rw [Tables.missingOfFills fills]
  refine iff_of_false (coversNil height) ?_
  rintro ⟨missing, absent⟩
  obtain ⟨_, member, inside⟩ := settled.all height missing
  obtain ⟨report, listed, rfl⟩ := List.mem_map.mp member
  obtain ⟨record, accepted, same⟩ :=
    acceptedOfRepaired unlogged fresh progress listed (repaired report listed) inside
  exact absent ((populatedOfProgress unlogged fresh progress attempted height).mpr
    (.inr ⟨report, listed, record, accepted, congrArg Nat.cast same⟩))

/-- A report without failures and without skipped ranges says that every range was repaired. -/
theorem repairedOfSuccess {report : RepairReport} (success : report.isSuccess = true)
    (attempted : ∀ entry ∈ report.ranges, entry.outcome.isSkipped = false) :
    ∀ entry ∈ report.ranges, entry.outcome.isRepaired = true := by
  intro entry listed
  have tried := attempted entry listed
  cases outcome : entry.outcome with
  | repaired emitted applied commits => rfl
  | skipped height =>
      rw [outcome] at tried
      cases tried
  | failed error =>
      have failure : error ∈ report.failures :=
        List.mem_filterMap.mpr ⟨entry.outcome, List.mem_map_of_mem listed, by rw [outcome]; rfl⟩
      rw [RepairReport.isSuccess, List.isEmpty_iff] at success
      rw [success] at failure
      cases failure

theorem successOfRepaired {report : RepairReport}
    (repaired : ∀ entry ∈ report.ranges, entry.outcome.isRepaired = true) :
    report.isSuccess = true := by
  rw [RepairReport.isSuccess, List.isEmpty_iff, RepairReport.failures, List.filterMap_eq_nil_iff]
  intro outcome member
  obtain ⟨entry, listed, rfl⟩ := List.mem_map.mp member
  obtain ⟨emitted, applied, commits, outcome⟩ :=
    (RangeOutcome.repairedIff _).mp (repaired entry listed)
  rw [outcome]
  rfl

/-- A run that detects nothing asks for nothing and leaves the store alone. -/
theorem runOfNothing
    (nothing : repairer.store.detectGaps repairer.settings.fromGenesis before.sink = .ok []) :
    repairer.run .missing before = (.ok ⟨[]⟩, before.log contiguousEvent) := by
  unfold run plan
  rw [nothing]
  rfl

/-- What a run has done to a replica with the tables `before`, whose rows it keeps. -/
structure Converged (repairer : Repairer Replica) (before : Tables) (report : RepairReport)
    (after : Replica) : Prop where
  attempted : ∀ entry ∈ report.ranges, entry.outcome.isSkipped = false
  kept : before.Within after.visible
  populated : ∀ height : Int, after.visible.Populated height ↔
    before.Populated height ∨ ∃ entry ∈ report.ranges, ∃ record,
      repairer.Accepted entry record ∧ height = record.height.toNat
  filled : ∀ entry ∈ report.ranges, entry.outcome.isRepaired = true →
    ∀ height ∈ entry.planned.range, after.visible.Populated height
  detected : report.isSuccess = true →
    repairer.store.detectGaps repairer.settings.fromGenesis after = .ok []

/-- A run without a log converges, and a further run asks for nothing if no range failed. -/
theorem missingRunConverges (repairer : Repairer Replica) (plain : repairer.store = Replica.store)
    (unlogged : repairer.log = none) {before after : Committer Replica} {report : RepairReport}
    (reachable : before.sink.Reachable) (consistent : Consistent id before)
    (fresh : repairer.Fresh before.sink.visible)
    (finished : repairer.run .missing before = (.ok report, after)) :
    repairer.Converged before.sink.visible report after.sink ∧
      (report.isSuccess = true → ∀ again : Committer Replica, again.sink = after.sink →
        ∃ last, repairer.run .missing again = (.ok ⟨[]⟩, last) ∧ last.sink = after.sink ∧
          last.requested = again.requested) := by
  have backed : repairer.store.Backed id := plain ▸ Replica.storeBacked
  have settled := reportsOfRun backed consistent finished
  have progress := settled.toProgress
  have attempted : ∀ entry ∈ report.ranges, entry.outcome.isSkipped = false :=
    fun _ => attemptedOfProgress unlogged fresh (Replica.visibleFits reachable) progress
  have populated := populatedOfProgress unlogged fresh progress attempted
  have detected : report.isSuccess = true →
      repairer.store.detectGaps repairer.settings.fromGenesis after.sink = .ok [] := by
    intro success
    have nothing := nothingMissing unlogged fresh settled attempted
      (repairedOfSuccess success attempted)
    rw [plain]
    exact nothing
  refine ⟨⟨attempted, ?_, populated, ?_, detected⟩, ?_⟩
  · exact withinOfProgress unlogged fresh progress
  · intro entry listed repaired height inside
    obtain ⟨record, accepted, same⟩ :=
      acceptedOfRepaired unlogged fresh progress listed repaired inside
    exact (populated height).mpr (.inr ⟨entry, listed, record, accepted, congrArg Nat.cast same⟩)
  · intro success again same
    have nothing := detected success
    rw [← same] at nothing
    exact ⟨_, runOfNothing nothing, same, requestedLog _ _⟩

theorem gapConverges : ∃ report after,
    blanks.run .missing (.new (.ofTables .gapped)) = (.ok report, after) ∧
      blanks.Converged .gapped report after.sink ∧
      blanks.run .missing (.new after.sink) =
        (.ok ⟨[]⟩, (Committer.new after.sink).log contiguousEvent) := by
  have fillable : blanks.Fillable (Replica.ofTables .gapped).visible := blanksFillable
  obtain ⟨report, after, finished, repaired, _⟩ := @runOfReliable _ blanks id
    (.new (.ofTables .gapped)) _ Replica.storeBacked rfl fillable rfl rfl
    (Replica.detectGapsGapped true) Replica.storeReliable
  have converges := missingRunConverges blanks rfl rfl (.opened .gapped fillable.fits)
    (consistentOfClosed rfl) fillable.fresh finished
  exact ⟨report, after, finished, converges.1,
    runOfNothing (converges.1.detected (successOfRepaired repaired))⟩

end Repairer

end Backfill
