/-
This file shows that the settings of a repair do not change what it comes to, except for the lowest
height that counts as missing. If the fetcher has a record of every planned height then the result is
told by the replica, the ranges and these records.
-/

import Backfill.Proofs.Repair.Batching
import Backfill.Proofs.Repair.Durability
import Backfill.Proofs.Replica.Reachable

namespace Backfill

/-- The outcome of a range without the number of commits. -/
def RangeOutcome.uncommitted : RangeOutcome → RangeOutcome
  | .repaired emitted applied _ => .repaired emitted applied 0
  | other => other

/-- What a report says of a range whatever the settings are: neither the strategy nor the number of
commits. -/
def RangeReport.untuned (report : RangeReport) : HeightRange × RangeOrigin × RangeOutcome :=
  (report.planned.range, report.planned.origin, report.outcome.uncommitted)

/-- The outcome of a range for whose heights there were records, of which some may have been
refused. -/
def Tally.outcome {γ : Type} (range : HeightRange) (tally : Tally γ) : RangeOutcome :=
  if tally.refused.isEmpty then .repaired range.size tally.applied 0
  else .failed (.ofHeights range (Record.heights tally.refused))

namespace Fetcher

/-- The records of a range are written one by one. -/
def tally (fetcher : Fetcher) (origin : RangeOrigin) (tables : Tables) (range : HeightRange) :
    Tally Tables :=
  .ofRecords (fun _ record => record.isStorable) (Tables.write origin.replaces) tables
    ((fetcher.records range.heights).map Committer.repeatable)

/-- What a range comes to: it is left out, or all its records are written. -/
def settle (fetcher : Fetcher) (origin : RangeOrigin) (tables : Tables) (range : HeightRange) :
    RangeOutcome × Tables :=
  match origin, tables.holds (UInt64.ofNat range.start) with
  | .detected, .ok true => (.skipped range.start, tables)
  | _, _ =>
      let tally := fetcher.tally origin tables range
      (tally.outcome range, tally.content)

/-- What ranges come to one after another. -/
def settleAll (fetcher : Fetcher) (origin : RangeOrigin) :
    Tables → List HeightRange → List (HeightRange × RangeOrigin × RangeOutcome) × Tables
  | tables, [] => ([], tables)
  | tables, range :: rest =>
      let (outcome, next) := fetcher.settle origin tables range
      let (outcomes, last) := fetcher.settleAll origin next rest
      ((range, origin, outcome) :: outcomes, last)

end Fetcher

namespace Repairer

open Committer

variable {σ : Type} {repairer : Repairer σ} {replica : σ → Replica} {planned : PlannedRange}
  {before after : Committer σ}

/-- A range that is acquired is worked off, and then it is told what came of it. -/
theorem fillOfEmitted {emitted : Nat} (verdict : repairer.verdict planned = .emitted emitted)
    (before : Committer σ) :
    repairer.fill planned before =
      match (before.log (startEvent planned)).work repairer.store.toSink repairer.cadence
        planned.range planned.origin.replaces (repairer.calls planned) with
      | (.error cause, after) => (.error cause, after)
      | (.ok stats, after) =>
          if stats.failed.isEmpty then
            (.ok (.repaired emitted stats.applied stats.commits),
              after.log (repairedEvent planned.range stats))
          else
            let error := RangeError.ofHeights planned.range stats.failed
            (.ok (.failed error), after.log (failedEvent planned.range none error)) := by
  rw [fillEq, repairer.acquireEq, Consumer.perform, verdict, work]
  unfold consumer startRange
  cases (Committer.consumer repairer.store.toSink repairer.cadence).follow
      (repairer.calls planned) _ with
  | mk result taken =>
      cases result with
      | error cause => rfl
      | ok =>
          cases finished : taken.finishRange repairer.store.toSink repairer.cadence with
          | mk result last => cases result <;> simp only [conclude, finishEmitted, finished]

/-- A range that was filled comes to the tally of the records of its heights. -/
theorem filledTally (backed : repairer.store.Backed replica)
    (closed : before.inTransaction = false) (remote : planned.strategy ≠ .logScan)
    (full : ∀ height ∈ planned.range, (repairer.fetcher.recordAt? height).isSome)
    {outcome : RangeOutcome} (filled : repairer.fill planned before = (.ok outcome, after)) :
    let tally := repairer.fetcher.tally planned.origin (replica before.sink).visible planned.range
    outcome.uncommitted = tally.outcome planned.range ∧
      (replica after.sink).visible = tally.content := by
  intro tally
  obtain ⟨verdict, all⟩ := repairer.acquiredOfFull remote full
  rw [fillOfEmitted verdict] at filled
  cases worked : (before.log (startEvent planned)).work repairer.store.toSink repairer.cadence
      planned.range planned.origin.replaces (repairer.calls planned) with
  | mk result last =>
      rw [worked] at filled
      cases result with
      | error cause => cases filled
      | ok stats =>
          have start : (before.log (startEvent planned)).inTransaction = false := closed
          have tallied := talliesOfWork (Replica.stepwiseOfBacked backed) start worked
          rw [← handedOn, ← Fetcher.recordsOfMap all] at tallied
          obtain ⟨content, commits, same⟩ : (replica last.sink).visible = tally.content ∧
            ∃ commits, stats = ⟨tally.applied, commits,
              sortedHeights (Record.heights tally.refused).reverse⟩ := tallied
          have refusals : stats.failed.isEmpty = tally.refused.isEmpty := by
            rw [same, Bool.eq_iff_iff, List.isEmpty_iff, List.isEmpty_iff, sortedHeightsEqNil]
            simp [Record.heights]
          have names : RangeError.ofHeights planned.range stats.failed =
              .ofHeights planned.range (Record.heights tally.refused) := by
            rw [same]
            exact RangeError.ofHeightsCongr _ fun height => by rw [memSortedHeights, List.mem_reverse]
          have applied : stats.applied = tally.applied := by rw [same]
          dsimp only at filled
          rw [refusals, names, applied] at filled
          unfold Tally.outcome
          split at filled
          · rename_i none
            obtain ⟨ended, rfl⟩ := Prod.mk.inj filled
            obtain rfl := Except.ok.inj ended
            rw [if_pos none]
            exact ⟨rfl, content⟩
          · rename_i some
            obtain ⟨ended, rfl⟩ := Prod.mk.inj filled
            obtain rfl := Except.ok.inj ended
            rw [if_neg some]
            exact ⟨rfl, content⟩

/-- A range that is not left out comes to the tally of the records of its heights. -/
theorem absentSettles (backed : repairer.store.Backed replica)
    (reliable : repairer.store.Reliable replica) (closed : before.inTransaction = false)
    (quiet : (replica before.sink).working = none) (remote : planned.strategy ≠ .logScan)
    (full : ∀ height ∈ planned.range, (repairer.fetcher.recordAt? height).isSome)
    (absent : repairer.isPresent planned before.sink = .ok false) :
    let tally := repairer.fetcher.tally planned.origin (replica before.sink).visible planned.range
    ∃ outcome after, repairer.repairRange planned before = (.ok outcome, after) ∧
      outcome.uncommitted = tally.outcome planned.range ∧
      replica after.sink = .ofTables tally.content ∧ after.inTransaction = false := by
  intro tally
  obtain ⟨outcome, after, ended⟩ := endedOfReliable backed reliable closed quiet absent
    (repairer.acquiredOfFull remote full).1
  have written := rangeWritten backed (consistentOfClosed closed) ended
  have idle : (replica after.sink).working = none :=
    of_not_not fun busy => written.idle busy quiet
  rw [fillOfAbsent absent] at ended
  obtain ⟨told, content⟩ := filledTally backed closed remote full ended
  refine ⟨outcome, after, (fillOfAbsent absent).trans ended, told, ?_, ?_⟩
  · rw [eqOfClosed idle, content]
  · exact eq_false_of_ne_true fun busy =>
      absurd (closed.symm.trans (written.inTransaction busy)) (by decide)

/-- A planned range comes to what is told by the replica and the records. -/
theorem rangeSettles (backed : repairer.store.Backed replica)
    (reliable : repairer.store.Reliable replica) (closed : before.inTransaction = false)
    (quiet : (replica before.sink).working = none) {range : HeightRange} {strategy : Strategy}
    {origin : RangeOrigin} (remote : strategy ≠ .logScan)
    (full : ∀ height ∈ range, (repairer.fetcher.recordAt? height).isSome)
    (fits : origin = .detected → range.start ≤ maxSigned) :
    let settled := repairer.fetcher.settle origin (replica before.sink).visible range
    ∃ outcome after,
      repairer.repairRange ⟨range, strategy, origin⟩ before = (.ok outcome, after) ∧
        outcome.uncommitted = settled.1 ∧ replica after.sink = .ofTables settled.2 ∧
        after.inTransaction = false := by
  have filled (absent : repairer.isPresent ⟨range, strategy, origin⟩ before.sink = .ok false) :=
    absentSettles backed reliable closed quiet remote full absent
  cases origin with
  | manual => exact filled rfl
  | detected =>
      obtain ⟨present, answer, _⟩ := Replica.storeHoldsIff (replica before.sink) (fits rfl)
      change (replica before.sink).visible.holds (UInt64.ofNat range.start) = .ok present at answer
      have asked : repairer.isPresent ⟨range, strategy, .detected⟩ before.sink = .ok present :=
        (presentIff backed _ rfl).trans answer
      cases present with
      | true =>
          simp only [Fetcher.settle, answer]
          refine ⟨.skipped range.start, before.log (skipEvent range), ?_, rfl, eqOfClosed quiet,
            closed⟩
          rw [repairRange, asked]
      | false =>
          simp only [Fetcher.settle, answer]
          exact filled asked

/-- Planned ranges come one after another to what is told by the replica and the records. -/
theorem rangesSettle (backed : repairer.store.Backed replica)
    (reliable : repairer.store.Reliable replica) (thresholds : Thresholds) {origin : RangeOrigin}
    {ranges : List HeightRange}
    (full : ∀ range ∈ ranges, ∀ height ∈ range, (repairer.fetcher.recordAt? height).isSome)
    (fits : origin = .detected → ∀ range ∈ ranges, range.start ≤ maxSigned)
    (closed : before.inTransaction = false) (quiet : (replica before.sink).working = none) :
    let settled := repairer.fetcher.settleAll origin (replica before.sink).visible ranges
    ∃ reports after,
      repairer.repairRanges (PlannedRange.ofRanges thresholds false origin ranges) before =
          (.ok reports, after) ∧
        reports.map RangeReport.untuned = settled.1 ∧ replica after.sink = .ofTables settled.2 := by
  induction ranges generalizing before with
  | nil => exact ⟨[], before, rfl, rfl, eqOfClosed quiet⟩
  | cons range rest inductionHypothesis =>
      have here := List.mem_cons_self (a := range) (l := rest)
      obtain ⟨outcome, middle, repaired, told, left, still⟩ := rangeSettles backed reliable closed
        quiet (selectRemote thresholds range.size) (full range here) fun found => fits found range here
      obtain ⟨reports, after, others, toldOthers, last⟩ := inductionHypothesis
        (fun other later => full other (List.mem_cons_of_mem _ later))
        (fun found other later => fits found other (List.mem_cons_of_mem _ later)) still
        (by rw [left]; rfl)
      rw [left] at toldOthers last
      refine ⟨⟨⟨range, .select thresholds false range.size, origin⟩, outcome⟩ :: reports, after,
        ?_, ?_, last⟩
      · show repairer.repairRanges (⟨range, .select thresholds false range.size, origin⟩ ::
          PlannedRange.ofRanges thresholds false origin rest) before = _
        rw [repairRanges, repaired]
        dsimp only
        rw [others]
      · rw [List.map_cons, toldOthers, RangeReport.untuned, told]
        rfl

/-- A run comes to what is told by the replica, the planned ranges and the records. -/
theorem runSettles (backed : repairer.store.Backed replica)
    (reliable : repairer.store.Reliable replica) {mode : RepairMode} {thresholds : Thresholds}
    {origin : RangeOrigin} {ranges : List HeightRange}
    (planned : repairer.plan mode before.sink =
      .ok (PlannedRange.ofRanges thresholds false origin ranges))
    (full : ∀ range ∈ ranges, ∀ height ∈ range, (repairer.fetcher.recordAt? height).isSome)
    (fits : origin = .detected → ∀ range ∈ ranges, range.start ≤ maxSigned)
    (closed : before.inTransaction = false) (quiet : (replica before.sink).working = none) :
    let settled := repairer.fetcher.settleAll origin (replica before.sink).visible ranges
    ∃ report after, repairer.run mode before = (.ok report, after) ∧
      report.ranges.map RangeReport.untuned = settled.1 ∧
      replica after.sink = .ofTables settled.2 := by
  unfold run
  rw [planned]
  cases ranges with
  | nil => exact ⟨⟨[]⟩, before.log contiguousEvent, rfl, rfl, eqOfClosed quiet⟩
  | cons range rest =>
      let plan := PlannedRange.ofRanges thresholds false origin (range :: rest)
      let start := before.log (repairer.planEvent plan)
      obtain ⟨reports, after, repaired, told, left⟩ := @rangesSettle _ repairer replica start backed
        reliable thresholds origin (range :: rest) full fits closed quiet
      refine ⟨⟨reports⟩, after.log (reportEvent ⟨reports⟩ after.totalCommits), ?_, told, left⟩
      show repairer.runPlan plan before = _
      rw [runPlan, repaired]

/-- The ranges that a repair of a replica is to fill. -/
def targets (mode : RepairMode) (fromGenesis : Bool) (state : Replica) :
    RangeOrigin × List HeightRange :=
  match mode with
  | .manual ranges => (.manual, ranges)
  | .missing => (.detected, gapsOfHeights fromGenesis state.visible.naturalHeights)

theorem planOfNatural {repairer : Repairer Replica} (plain : repairer.store = Replica.store)
    (unlogged : repairer.log = none) (mode : RepairMode) {state : Replica}
    (natural : state.visible.Natural) :
    let ranges := targets mode repairer.settings.fromGenesis state
    repairer.plan mode state =
      .ok (PlannedRange.ofRanges repairer.settings.thresholds false ranges.1 ranges.2) := by
  unfold plan
  rw [unlogged]
  cases mode with
  | manual ranges => rfl
  | missing =>
      dsimp only
      rw [plain, Replica.detectGapsOfNatural natural]
      rfl

/-- Ranges that were found missing start at heights that fit their column. -/
theorem targetsFit {mode : RepairMode} {fromGenesis : Bool} {state : Replica}
    (natural : state.visible.Natural) (fits : state.visible.Fits)
    (detected : (targets mode fromGenesis state).1 = .detected) :
    ∀ range ∈ (targets mode fromGenesis state).2, range.start ≤ maxSigned := by
  cases mode with
  | manual ranges => cases detected
  | missing =>
      intro range member
      have gaps := @Replica.detectGapsOfNatural state fromGenesis natural
      obtain ⟨_, _, missing⟩ := Replica.detectGapsIff.mp gaps
      exact Tables.missingFits fits ((missing range.start).mp ⟨range, member, range.startMem⟩)

/-- Two repairs that differ only in their settings, but not in the lowest height that counts as
missing, come to the same if the fetcher has a record of every planned height: both report, and leave
in the replica, what the planned ranges come to one after another. -/
theorem tuningInvisible (first second : Repairer Replica) (firstPlain : first.store = Replica.store)
    (secondPlain : second.store = Replica.store) (firstUnlogged : first.log = none)
    (secondUnlogged : second.log = none) (fetcher : second.fetcher = first.fetcher)
    (lowest : second.settings.fromGenesis = first.settings.fromGenesis) (mode : RepairMode)
    {before : Committer Replica} (used : before.sink.Used) (closed : before.inTransaction = false)
    (quiet : before.sink.working = none)
    (full : ∀ plan, first.plan mode before.sink = .ok plan → ∀ planned ∈ plan,
      ∀ height ∈ planned.range, (first.fetcher.recordAt? height).isSome) :
    let ranges := targets mode first.settings.fromGenesis before.sink
    let settled := first.fetcher.settleAll ranges.1 before.sink.visible ranges.2
    ∃ firstReport firstAfter secondReport secondAfter,
      first.run mode before = (.ok firstReport, firstAfter) ∧
        second.run mode before = (.ok secondReport, secondAfter) ∧
        firstReport.ranges.map RangeReport.untuned =
          secondReport.ranges.map RangeReport.untuned ∧
        firstAfter.sink = secondAfter.sink ∧
        secondReport.ranges.map RangeReport.untuned = settled.1 ∧
        secondAfter.sink = .ofTables settled.2 := by
  intro ranges settled
  obtain ⟨natural, small⟩ := Replica.visibleOfUsed used
  have firstPlan := planOfNatural firstPlain firstUnlogged mode natural
  have secondPlan := planOfNatural secondPlain secondUnlogged mode natural
  rw [lowest] at secondPlan
  have fits := @targetsFit mode first.settings.fromGenesis before.sink natural small
  have records : ∀ range ∈ (targets mode first.settings.fromGenesis before.sink).2,
      ∀ height ∈ range, (first.fetcher.recordAt? height).isSome := by
    intro range member height inside
    exact full _ firstPlan _ (List.mem_map_of_mem member) height inside
  obtain ⟨firstReport, firstAfter, firstRun, firstTold, firstLeft⟩ := @runSettles _ first id before
    (firstPlain ▸ Replica.storeBacked) (firstPlain ▸ Replica.storeReliable) _ _ _ _ firstPlan records
    fits closed quiet
  obtain ⟨secondReport, secondAfter, secondRun, secondTold, secondLeft⟩ := @runSettles _ second id
    before (secondPlain ▸ Replica.storeBacked) (secondPlain ▸ Replica.storeReliable) _ _ _ _
    secondPlan (fetcher ▸ records) fits closed quiet
  rw [fetcher] at secondTold secondLeft
  exact ⟨firstReport, firstAfter, secondReport, secondAfter, firstRun, secondRun,
    firstTold.trans secondTold.symm, firstLeft.trans secondLeft.symm, secondTold, secondLeft⟩

/-- The repairer `blanks` with two workers that share windows of one height, and with a commit after
each record. -/
def hurried : Repairer Replica :=
  { blanks with
    settings := { RepairSettings.standard with
      workers := 2
      commitInterval := 1
      batchSize := 1
      fetchWindow := 1
      sequentialMax := 0
      parallelMax := 1 } }

/-- The gap is filled alike by one request after another and by two workers, and no height is missing
then. -/
theorem tuningOfGap :
    blanks.plan .missing (.ofTables .gapped) = .ok [gap .sequential] ∧
      hurried.plan .missing (.ofTables .gapped) = .ok [gap .parallel] ∧
      ∃ firstReport firstAfter secondReport secondAfter,
        blanks.run .missing (.new (.ofTables .gapped)) = (.ok firstReport, firstAfter) ∧
          hurried.run .missing (.new (.ofTables .gapped)) = (.ok secondReport, secondAfter) ∧
          firstReport.ranges.map RangeReport.untuned =
            [(Tables.gap, .detected, .repaired 2 2 0)] ∧
          secondReport.ranges.map RangeReport.untuned =
            [(Tables.gap, .detected, .repaired 2 2 0)] ∧
          firstAfter.sink = secondAfter.sink ∧
          secondAfter.sink.visible.blocks.toList.map (fun block => block.2.height) =
            [0, 1, 2, 3] := by
  have detected := Replica.detectGapsGapped true
  have natural : Tables.gapped.Natural := Replica.naturalOfDetectGaps detected
  have sequential : blanks.plan .missing (.ofTables .gapped) = .ok [gap .sequential] :=
    blanks.planOfGaps detected
  have parallel : hurried.plan .missing (.ofTables .gapped) = .ok [gap .parallel] :=
    hurried.planOfGaps detected
  have full : ∀ plan, blanks.plan .missing (.ofTables .gapped) = .ok plan → ∀ planned ∈ plan,
      ∀ height ∈ planned.range, (blanks.fetcher.recordAt? height).isSome := by
    intro plan planned
    obtain rfl := Except.ok.inj (sequential.symm.trans planned)
    have listed : ∀ height ∈ Tables.gap.heights, (blanks.fetcher.recordAt? height).isSome := by
      decide
    intro range member height inside
    obtain rfl := List.mem_singleton.mp member
    exact listed height ((Tables.gap.memHeights height).mpr inside)
  have settled : (Fetcher.settleAll (.blanks 4) .detected Tables.gapped [Tables.gap]).1 =
      [(Tables.gap, .detected, .repaired 2 2 0)] := by
    decide +kernel
  have filled : (Fetcher.settleAll (.blanks 4) .detected Tables.gapped
      [Tables.gap]).2.blocks.toList.map (fun block => block.2.height) = [0, 1, 2, 3] := by
    decide +kernel
  have gaps : gapsOfHeights true Tables.gapped.naturalHeights = [Tables.gap] :=
    Except.ok.inj
      ((@Replica.detectGapsOfNatural (.ofTables .gapped) true natural).symm.trans detected)
  obtain ⟨firstReport, firstAfter, secondReport, secondAfter, firstRun, secondRun, told, left,
    secondTold, secondLeft⟩ := blanks.tuningInvisible hurried rfl rfl rfl rfl rfl rfl .missing
      (show (new (Replica.ofTables .gapped)).sink.Used from
        ⟨.gapped, [], natural, Tables.fitsGapped, rfl⟩) rfl rfl full
  change _ = (Fetcher.settleAll (.blanks 4) .detected Tables.gapped
    (gapsOfHeights true Tables.gapped.naturalHeights)).1 at secondTold
  change _ = Replica.ofTables (Fetcher.settleAll (.blanks 4) .detected Tables.gapped
    (gapsOfHeights true Tables.gapped.naturalHeights)).2 at secondLeft
  rw [gaps] at secondTold secondLeft
  refine ⟨sequential, parallel, firstReport, firstAfter, secondReport, secondAfter, firstRun,
    secondRun, told.trans (secondTold.trans settled), secondTold.trans settled, left, ?_⟩
  rw [secondLeft]
  exact filled

end Repairer

end Backfill
