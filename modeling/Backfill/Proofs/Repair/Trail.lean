/-
This file takes a run apart into the planned ranges that it repaired one after another.
-/

import Backfill.Proofs.Repair.Upkeep
import Backfill.Repair.Run

namespace Backfill.Repairer

open Committer

variable {σ : Type}

/-- Planned ranges that were repaired one after another without ending the run, with their reports.
-/
inductive Trail (repairer : Repairer σ) :
    List PlannedRange → Committer σ → List RangeReport → Committer σ → Prop
  | nil (committer : Committer σ) : Trail repairer [] committer [] committer
  | cons {planned : PlannedRange} {rest : List PlannedRange} {outcome : RangeOutcome}
      {reports : List RangeReport} {before middle after : Committer σ}
      (repaired : repairer.repairRange planned before = (.ok outcome, middle))
      (trail : Trail repairer rest middle reports after) :
      Trail repairer (planned :: rest) before (⟨planned, outcome⟩ :: reports) after

/-- The plan for missing ranges. -/
def planOf (repairer : Repairer σ) (gaps : List HeightRange) : List PlannedRange :=
  PlannedRange.ofRanges repairer.settings.thresholds repairer.log.isSome .detected gaps

/-- A trail reports on its planned ranges in order. -/
theorem plannedOfTrail {repairer : Repairer σ} {plan : List PlannedRange}
    {before after : Committer σ} {reports : List RangeReport}
    (trail : repairer.Trail plan before reports after) :
    reports.map RangeReport.planned = plan := by
  induction trail with
  | nil => rfl
  | cons _ _ inductionHypothesis => rw [List.map_cons, inductionHypothesis]

/-- Each report of a trail is that of a planned range that was repaired. -/
theorem repairedOfTrail {repairer : Repairer σ} {plan : List PlannedRange}
    {before after : Committer σ} {reports : List RangeReport}
    (trail : repairer.Trail plan before reports after) :
    ∀ report ∈ reports, ∃ first last,
      repairer.repairRange report.planned first = (.ok report.outcome, last) := by
  induction trail with
  | nil => simp
  | cons repaired _ inductionHypothesis =>
      exact List.forall_mem_cons.mpr ⟨⟨_, _, repaired⟩, inductionHypothesis⟩

/-- Planned ranges are repaired to the last one, or up to the one that ends the run. -/
theorem repairRangesTrail (repairer : Repairer σ) (plan : List PlannedRange)
    (before : Committer σ) :
    match repairer.repairRanges plan before with
    | (.ok reports, after) => repairer.Trail plan before reports after
    | (.error cause, after) => ∃ done current later reports middle,
        plan = done ++ current :: later ∧ repairer.Trail done before reports middle ∧
          repairer.repairRange current middle = (.error cause, after) := by
  induction plan generalizing before with
  | nil => exact .nil before
  | cons planned rest inductionHypothesis =>
      rw [repairRanges]
      cases repaired : repairer.repairRange planned before with
      | mk result middle =>
          cases result with
          | error cause => exact ⟨[], planned, rest, [], before, rfl, .nil before, repaired⟩
          | ok outcome =>
              have further := inductionHypothesis middle
              dsimp only
              cases others : repairer.repairRanges rest middle with
              | mk result after =>
                  rw [others] at further
                  cases result with
                  | ok reports => exact .cons repaired further
                  | error cause =>
                      obtain ⟨done, current, later, reports, last, rfl, trail, ended⟩ := further
                      exact ⟨planned :: done, current, later, ⟨planned, outcome⟩ :: reports, last,
                        rfl, .cons repaired trail, ended⟩

/-- A run that comes to its end leaves a trail of what it planned. -/
theorem trailOfRun {repairer : Repairer σ} {mode : RepairMode} {before after : Committer σ}
    {report : RepairReport} (ran : repairer.run mode before = (.ok report, after)) :
    ∃ plan start last, repairer.plan mode before.sink = .ok plan ∧
      repairer.Trail plan start report.ranges last := by
  unfold run at ran
  split at ran
  · cases ran
  · rename_i planned
    obtain rfl := Except.ok.inj (Prod.mk.inj ran).1
    exact ⟨[], before, before, planned, .nil before⟩
  · rename_i plan _ planned
    have trail := repairer.repairRangesTrail plan (before.log (repairer.planEvent plan))
    unfold runPlan at ran
    split at ran
    · cases ran
    · rename_i reports last repaired
      obtain rfl := Except.ok.inj (Prod.mk.inj ran).1
      rw [repaired] at trail
      exact ⟨plan, _, last, planned, trail⟩

theorem planOfGaps (repairer : Repairer σ) {state : σ} {gaps : List HeightRange}
    (detected : repairer.store.detectGaps repairer.settings.fromGenesis state = .ok gaps) :
    repairer.plan .missing state = .ok (repairer.planOf gaps) := by
  unfold plan
  rw [detected]
  rfl

/-- A run that detects missing ranges repairs what it plans for them. -/
theorem runOfGaps (repairer : Repairer σ) {before : Committer σ} {gap : HeightRange}
    {gaps : List HeightRange}
    (detected : repairer.store.detectGaps repairer.settings.fromGenesis before.sink =
      .ok (gap :: gaps)) :
    repairer.run .missing before = repairer.runPlan (repairer.planOf (gap :: gaps)) before := by
  unfold run
  rw [repairer.planOfGaps detected]
  rfl

/-- A run that looks for missing ranges repairs all that it planned, or it ends before the first
range or in one of them. -/
theorem runTrail (repairer : Repairer σ) (before : Committer σ) :
    match repairer.run .missing before with
    | (.ok report, after) => ∃ gaps start last,
        repairer.store.detectGaps repairer.settings.fromGenesis before.sink = .ok gaps ∧
          Alike before start ∧ repairer.Trail (repairer.planOf gaps) start report.ranges last ∧
            Alike last after
    | (.error cause, after) =>
        (∃ fault, repairer.store.detectGaps repairer.settings.fromGenesis before.sink =
          .error fault ∧ after = before) ∨
        ∃ gaps start done current later reports middle,
          repairer.store.detectGaps repairer.settings.fromGenesis before.sink = .ok gaps ∧
            Alike before start ∧ repairer.planOf gaps = done ++ current :: later ∧
              repairer.Trail done start reports middle ∧
                repairer.repairRange current middle = (.error cause, after) := by
  unfold run plan
  cases detected : repairer.store.detectGaps repairer.settings.fromGenesis before.sink with
  | error fault => exact .inl ⟨fault, rfl, rfl⟩
  | ok gaps =>
      dsimp only
      rw [← planOf]
      cases planned : repairer.planOf gaps with
      | nil =>
          exact ⟨gaps, before, before, rfl, ⟨rfl, rfl, rfl, rfl, rfl⟩, planned ▸ .nil before,
            ⟨rfl, rfl, rfl, rfl, rfl⟩⟩
      | cons first rest =>
          let start := before.log (repairer.planEvent (first :: rest))
          have ranges := repairer.repairRangesTrail (first :: rest) start
          dsimp only [runPlan]
          cases repaired : repairer.repairRanges (first :: rest) start with
          | mk result after =>
              rw [repaired] at ranges
              cases result with
              | ok reports =>
                  exact ⟨gaps, start, after, rfl, ⟨rfl, rfl, rfl, rfl, rfl⟩, planned ▸ ranges,
                    ⟨rfl, rfl, rfl, rfl, rfl⟩⟩
              | error cause =>
                  obtain ⟨done, current, later, reports, middle, split, trail, ended⟩ := ranges
                  exact .inr ⟨gaps, start, done, current, later, reports, middle, rfl,
                    ⟨rfl, rfl, rfl, rfl, rfl⟩, planned.trans split, trail, ended⟩

end Backfill.Repairer
