/-
This file shows when a range that is reported as repaired has a block at each of its heights: unless
the log had a deletion in the place of a block.
-/

import Backfill.Log.Writer
import Backfill.Proofs.Repair.Heights

namespace Backfill.Repairer

open Committer

variable {σ : Type} {repairer : Repairer σ}

theorem writtenForRepaired {report : RangeReport} {emitted applied commits : Nat}
    (repaired : report.outcome = .repaired emitted applied commits) :
    repairer.writtenFor report = repairer.toWrite report.planned := by
  rw [writtenFor, repaired]
  rfl

/-- A missing height in a range that is reported as repaired has a block afterwards, unless the
record that was handed on for it is a deletion. -/
theorem populatedByRepair {replica : σ → Replica} (upserts : repairer.fetcher.Upserts)
    {before after : Committer σ} {reports : List RangeReport}
    (unambiguous : Unambiguous (repairer.Names (replica before.sink).visible))
    (settled : repairer.Reports replica before reports after) {report : RangeReport}
    (member : report ∈ reports) {emitted applied commits : Nat}
    (repaired : report.outcome = .repaired emitted applied commits) {height : Nat}
    (inside : height ∈ report.planned.range) :
    (replica after.sink).visible.Populated height ↔
      ¬∃ record ∈ repairer.handedOn report.planned,
        record.height.toNat = height ∧ record.operation = .delete := by
  have honest := Fetcher.honestOfUpserts upserts report.planned.range
  obtain ⟨verdict, storable⟩ :=
    settled.written.repaired report member emitted applied commits repaired
  have perm := (repairer.acquires report.planned).once honest emitted verdict
  have written : repairer.writtenFor report = repairer.toWrite report.planned :=
    writtenForRepaired repaired
  have once : (Record.heights (repairer.writtenFor report)).Nodup := by
    rw [written, heightsToWrite]
    exact perm.nodup_iff.mpr report.planned.range.heightsNodup
  have absent : ¬(replica before.sink).visible.Populated height :=
    (settled.missing height ⟨_, List.mem_map_of_mem member, inside⟩).1
  have named : repairer.WritesNamed (repairer.Names (replica before.sink).visible) reports :=
    fun other _ _ handed => ⟨toWriteNamed upserts _ handed,
      toWriteInside (Fetcher.honestOfUpserts upserts other.planned.range) handed⟩
  rw [settled.written.visible, populatedByReport unambiguous (repairer.tablesNamed _) named
    settled.separated member inside once absent, written]
  constructor
  · rintro ⟨record, handed, same, keeps, _⟩ ⟨other, otherHanded, otherSame, deletes⟩
    obtain ⟨origin, originHanded, rfl⟩ := memToWrite handed
    rw [repeatableHeight] at same
    have heights : (Record.heights (repairer.handedOn report.planned)).Nodup :=
      perm.nodup_iff.mpr report.planned.range.heightsNodup
    have equal : origin = other := List.inj_on_of_nodup_map heights originHanded otherHanded
      ((Int.ofNat_inj.mp same).symm.trans otherSame.symm)
    rw [equal] at keeps
    exact keeps ((repeatableDeletes other).mpr deletes)
  · intro clean
    have present : height ∈ Record.heights (repairer.handedOn report.planned) :=
      perm.mem_iff.mpr ((report.planned.range.memHeights height).mpr inside)
    obtain ⟨record, handed, same⟩ := List.mem_map.mp present
    have taken : repeatable record ∈ repairer.toWrite report.planned := List.mem_map_of_mem handed
    refine ⟨repeatable record, taken, ?_, ?_, storable _ taken⟩
    · rw [repeatableHeight, same]
    · intro deletes
      exact clean ⟨record, handed, same, (repeatableDeletes record).mp deletes⟩

/-- A deletion that is handed on was read from the log. -/
theorem scannedOfDeletion (upserts : repairer.fetcher.Upserts) {planned : PlannedRange}
    {record : Record} (handed : record ∈ repairer.handedOn planned)
    (deletes : record.operation = .delete) : repairer.Scanned planned.range record := by
  rcases (repairer.acquires planned).origin record handed with ⟨height, _, found⟩ | scanned
  · have puts := (upserts height record found).2.1
    rw [deletes] at puts
    cases puts
  · exact scanned

/-- Every height of a range that a run reports as repaired has a block afterwards, except for those
for which a scan of the log handed on a deletion. -/
theorem repairedRangeFilled (repairer : Repairer Replica) (plain : repairer.store = Replica.store)
    (upserts : repairer.fetcher.Upserts) {before after : Committer Replica} {report : RepairReport}
    (reachable : before.sink.Reachable) (consistent : Consistent id before)
    (unambiguous : Unambiguous (repairer.Names before.sink.visible))
    (finished : repairer.run .missing before = (.ok report, after)) :
    ∀ entry ∈ report.ranges, ∀ emitted applied commits,
      entry.outcome = .repaired emitted applied commits → ∀ height ∈ entry.planned.range,
        (Replica.store.holds after.sink height = .ok true ↔
          ¬∃ record ∈ repairer.handedOn entry.planned, record.height.toNat = height ∧
            record.operation = .delete ∧ repairer.Scanned entry.planned.range record) := by
  intro entry member emitted applied commits repaired height inside
  have backed : repairer.store.Backed id := plain ▸ Replica.storeBacked
  have settled := reportsOfRun backed consistent finished
  have missing := settled.missing height ⟨_, List.mem_map_of_mem member, inside⟩
  have small := Tables.missingFits (Replica.visibleFits reachable) missing
  have populated := populatedByRepair upserts unambiguous settled member repaired inside
  obtain ⟨present, answer, same⟩ := Replica.storeHoldsIff after.sink small
  rw [answer, Except.ok.injEq, same]
  refine populated.trans (not_congr ?_)
  constructor
  · rintro ⟨record, handed, own, deletes⟩
    exact ⟨record, handed, own, deletes, scannedOfDeletion upserts handed deletes⟩
  · rintro ⟨record, handed, own, deletes, _⟩
    exact ⟨record, handed, own, deletes⟩

/-- A log with a damaged entry, a deletion of the block of height one and an upsert of the block of
height two. -/
def deletionLog : LogReader :=
  let deletion := Text.Utf8.encode "[[\"block\"],\"delete\",\"01\",\"\",null,\"\",1]"
  let upsert := Text.Utf8.encode "[[\"block\"],\"upsert\",\"02\",\"\",null,\"\",2]"
  let damaged := (LogWriter.empty .offsets).appendRaw [] 0
  let writer := (damaged.appendRaw deletion 1).appendRaw upsert 2
  .ofFiles .standard (.file writer.index) (.file writer.data)

/-- A repairer that scans this log for two heights or more. -/
def deletions : Repairer Replica :=
  { blanks with
    settings := { RepairSettings.standard with sequentialMax := 0, parallelMax := 1 }
    log := some deletionLog }

theorem readDeletionLog {position : Nat} {record : Record}
    (read : deletionLog.read position = .ok record) :
    record = { Record.blank 1 with operation := .delete } ∨ record = .blank 2 := by
  have entries : deletionLog.entries = 3 := by decide +kernel
  by_cases within : position < 3
  · have first : (deletionLog.read 0).toOption = none := by decide +kernel
    have second : deletionLog.read 1 = .ok { Record.blank 1 with operation := .delete } := by
      decide +kernel
    have third : deletionLog.read 2 = .ok (.blank 2) := by decide +kernel
    obtain rfl | rfl | rfl : position = 0 ∨ position = 1 ∨ position = 2 := by omega
    · rw [read] at first
      cases first
    · exact .inl (Except.ok.inj (read.symm.trans second))
    · exact .inr (Except.ok.inj (read.symm.trans third))
  · unfold LogReader.read LogReader.entry at read
    rw [if_pos (by omega)] at read
    cases read

/-- The hashes of the blocks of the gapped tables, of the log and of the fetcher stand for one
height each. -/
theorem deletionsUnambiguous : Unambiguous (deletions.Names .gapped) := by
  have named (hash : String) (height : Int) (names : deletions.Names .gapped hash height) :
      ∃ place < 4, hash = (Record.blank place).keyText ∧ height = (place : Nat) := by
    cases names with
    | @row hash row found =>
        have listed := Std.ExtTreeMap.mem_toList_iff_getElem?_eq_some.mpr found
        have rows : ∀ entry ∈ Tables.gapped.blocks.toList, ∃ place < 4,
            entry.1 = (Record.blank place).keyText ∧ entry.2.height = (place : Nat) := by
          decide +kernel
        exact rows _ listed
    | logged present read block =>
        obtain rfl := Option.some.inj present
        rcases readDeletionLog read with rfl | rfl
        · exact ⟨1, by omega, rfl, rfl⟩
        · exact ⟨2, by omega, rfl, rfl⟩
    | fetched found =>
        obtain ⟨below, rfl⟩ := Fetcher.recordAtBlanks found
        refine ⟨_, below, rfl, ?_⟩
        exact congrArg Nat.cast (Fetcher.blanksUpserts (by decide) _ _ found).2.2
  have apart : ∀ first < 4, ∀ second < 4,
      (Record.blank first).keyText = (Record.blank second).keyText → first = second := by
    decide +kernel
  intro hash first second firstNames secondNames
  obtain ⟨low, lowBelow, rfl, rfl⟩ := named hash first firstNames
  obtain ⟨high, highBelow, same, rfl⟩ := named _ second secondNames
  exact congrArg Nat.cast (apart low lowBelow high highBelow same)

/-- The scan of the log gives the gap a deletion and a block, and the range counts as repaired. -/
theorem deletionsRun : ∃ applied commits report after,
    deletions.run .missing (.new (.ofTables .gapped)) = (.ok report, after) ∧
      ⟨gap .logScan, .repaired 2 applied commits⟩ ∈ report.ranges := by
  let start : Committer Replica := .new (.ofTables .gapped)
  have verdict : deletions.verdict (gap .logScan) = .emitted 2 := by decide +kernel
  obtain ⟨applied, commits, after, repaired⟩ := @repairedOfEmitted _ deletions id (gap .logScan)
    (start.log (deletions.planEvent [gap .logScan])) Replica.storeBacked Replica.storeReliable
    rfl rfl (by decide +kernel) _ verdict (by decide +kernel)
  let report : RepairReport := ⟨[⟨gap .logScan, .repaired 2 applied commits⟩]⟩
  refine ⟨applied, commits, report, after.log (reportEvent report after.totalCommits), ?_,
    List.mem_cons_self⟩
  rw [runOfGaps _ (Replica.detectGapsGapped true)]
  have planned : deletions.planOf [Tables.gap] = [gap .logScan] := rfl
  rw [planned, runPlan]
  simp only [repairRanges]
  rw [repaired]

theorem deletionsFilled : ∃ report after,
    deletions.run .missing (.new (.ofTables .gapped)) = (.ok report, after) ∧
      Replica.store.holds after.sink 2 = .ok true := by
  have upserts : deletions.fetcher.Upserts := Fetcher.blanksUpserts (by decide)
  obtain ⟨applied, commits, report, after, finished, listed⟩ := deletionsRun
  have inside : 2 ∈ (gap .logScan).range := ⟨by decide, by decide⟩
  have filled := @repairedRangeFilled deletions rfl upserts (.new (.ofTables .gapped)) after report
    (.opened _ Tables.fitsGapped) (consistentOfClosed rfl) deletionsUnambiguous finished _ listed
    _ _ _ rfl 2 inside
  refine ⟨report, after, finished, filled.mpr ?_⟩
  have handed : ∀ record ∈ deletions.handedOn (gap .logScan), record.height.toNat = 2 →
      record.operation ≠ .delete := by
    decide +kernel
  rintro ⟨record, member, same, deletes, _⟩
  exact handed record member same deletes

/-- A range that is reported as repaired need not have a block at each of its heights. -/
theorem repairedRangeHole : ∃ report after,
    deletions.store = Replica.store ∧ deletions.fetcher.Upserts ∧
      (Replica.ofTables .gapped).Reachable ∧ Unambiguous (deletions.Names .gapped) ∧
      deletions.run .missing (.new (.ofTables .gapped)) = (.ok report, after) ∧
      ∃ entry ∈ report.ranges, entry.outcome.isRepaired = true ∧ 1 ∈ entry.planned.range ∧
        Replica.store.holds after.sink 1 = .ok false := by
  have upserts : deletions.fetcher.Upserts := Fetcher.blanksUpserts (by decide)
  obtain ⟨applied, commits, report, after, finished, listed⟩ := deletionsRun
  have settled := @reportsOfRun _ deletions id (.new (.ofTables .gapped)) after
    Replica.storeBacked report (consistentOfClosed rfl) finished
  have inside : 1 ∈ (gap .logScan).range := ⟨by decide, by decide⟩
  have deleted : ∃ record ∈ deletions.handedOn (gap .logScan),
      record.height.toNat = 1 ∧ record.operation = .delete := by
    decide +kernel
  have unambiguous : Unambiguous (deletions.Names (id (Replica.ofTables .gapped)).visible) :=
    deletionsUnambiguous
  have absent := mt (populatedByRepair upserts unambiguous settled listed rfl inside).mp
    (not_not_intro deleted)
  obtain ⟨present, answer, same⟩ := @Replica.storeHoldsIff after.sink 1 (by decide)
  obtain rfl : present = false := eq_false_of_ne_true (mt same.mp absent)
  exact ⟨report, after, rfl, upserts, .opened _ Tables.fitsGapped, deletionsUnambiguous, finished,
    _, listed, rfl, inside, answer⟩

end Backfill.Repairer
