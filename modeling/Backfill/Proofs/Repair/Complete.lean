/-
This file shows what a run without a log comes to if the fetcher has a block of every missing
height: the blocks of the missing heights are written in ascending order, to the last one or up to a
height of one range.
-/

import Backfill.Proofs.Repair.Fetched

namespace Backfill

namespace Fetcher

variable {fetcher : Fetcher} {heights : List Nat}

/-- An initial part of the records are the records of an initial part of the heights. -/
theorem splitOfMap {first second : List Record}
    (all : heights.map fetcher.recordAt? = (first ++ second).map some) :
    ∃ taken left, heights = taken ++ left ∧ fetcher.records taken = first ∧
      left.length = second.length := by
  rw [List.map_append] at all
  obtain ⟨taken, left, same, firstAll, secondAll⟩ := List.map_eq_append_iff.mp all
  refine ⟨taken, left, same, recordsOfMap firstAll, ?_⟩
  simpa using congrArg List.length secondAll

end Fetcher

namespace Repairer

open Committer

variable {σ : Type}

/-- Tables that a run can fill: the fetcher has a new block of every missing height, which can be
stored. -/
structure Fillable (repairer : Repairer σ) (tables : Tables) : Prop where
  fits : tables.Fits
  fresh : repairer.Fresh tables
  complete : ∀ height, tables.Missing repairer.settings.fromGenesis height →
    ∃ record, repairer.fetcher.recordAt? height = some record ∧ record.isStorable = true

variable {repairer : Repairer σ} {tables : Tables} {heights : List Nat}

section Written

variable (fillable : repairer.Fillable tables)
  (missing : ∀ height ∈ heights, tables.Missing repairer.settings.fromGenesis height)
include fillable missing

omit fillable in
theorem fetchesRecords : repairer.Fetches tables (repairer.fetcher.records heights) := by
  intro record member
  obtain ⟨height, inside, found⟩ := List.mem_filterMap.mp member
  exact ⟨height, missing height inside, found⟩

/-- The blocks of missing heights populate these heights. -/
theorem populatedOfRecords (height : Int) :
    (tables.writeAll false (repairer.fetcher.records heights)).Populated height ↔
      tables.Populated height ∨ ∃ place ∈ heights, height = (place : Int) := by
  rw [populatedOfFetches fillable.fresh (fetchesRecords missing)]
  refine or_congr_right ⟨?_, ?_⟩
  · rintro ⟨record, member, same, _⟩
    obtain ⟨place, inside, found⟩ := List.mem_filterMap.mp member
    rw [(fillable.fresh.upserts place record (missing place inside) found).2.2] at same
    exact ⟨place, inside, same⟩
  · rintro ⟨place, inside, same⟩
    obtain ⟨record, found, storable⟩ := fillable.complete place (missing place inside)
    refine ⟨record, List.mem_filterMap.mpr ⟨place, inside, found⟩, ?_, storable⟩
    rw [(fillable.fresh.upserts place record (missing place inside) found).2.2]
    exact same

/-- Once the blocks of missing heights are written, the others are still missing. -/
theorem missingOfRecords (height : Nat) :
    (tables.writeAll false (repairer.fetcher.records heights)).Missing
        repairer.settings.fromGenesis height ↔
      tables.Missing repairer.settings.fromGenesis height ∧ height ∉ heights := by
  rw [Tables.missingOfFills (fillsOfFetches fillable.fresh (fetchesRecords missing))]
  refine and_congr_right fun lacks => not_congr ?_
  rw [populatedOfRecords fillable missing]
  constructor
  · rintro (populated | ⟨place, inside, same⟩)
    · exact absurd populated lacks.1
    · rwa [Int.ofNat_inj.mp same]
  · intro inside
    exact .inr ⟨height, inside, rfl⟩

/-- Tables that can be filled can still be filled when some missing heights are. -/
theorem fillableOfRecords :
    repairer.Fillable (tables.writeAll false (repairer.fetcher.records heights)) := by
  have still (height : Nat) (lacks : (tables.writeAll false
      (repairer.fetcher.records heights)).Missing repairer.settings.fromGenesis height) :=
    ((missingOfRecords fillable missing height).mp lacks).1
  have named := Tables.namedWriteAll (repairer.tablesNamedMissing tables)
    (fetchesNamed fillable.fresh (fetchesRecords missing))
  refine ⟨?_, ⟨?_, ?_, ?_⟩, fun height lacks => fillable.complete height (still height lacks)⟩
  · intro height populated
    rcases (populatedOfRecords fillable missing height).mp populated with
      old | ⟨place, inside, rfl⟩
    · exact fillable.fits height old
    · exact Int.ofNat_le.mpr (Tables.missingFits fillable.fits (missing place inside))
  · intro height record lacks
    exact fillable.fresh.upserts height record (still height lacks)
  · intro height record lacks found
    rw [Option.eq_none_iff_forall_ne_some]
    intro row present
    refine lacks.1 ⟨_, row, present, ?_⟩
    exact unambiguousOfFresh fillable.fresh _ _ _ (named _ row present)
      (.fetched (still height lacks) found)
  · intro first second firstRecord secondRecord firstLacks secondLacks
    exact fillable.fresh.distinct _ _ _ _ (still first firstLacks) (still second secondLacks)

end Written

/-- A plan without a log scans none. -/
theorem remoteOfPlan (unlogged : repairer.log = none) {gaps : List HeightRange}
    {planned : PlannedRange} (member : planned ∈ repairer.planOf gaps) :
    planned.strategy ≠ .logScan := by
  rw [planOf, unlogged] at member
  exact remoteOfRanges member

/-- A missing range is acquired with the records that the fetcher has of its heights. -/
theorem acquiredWhole (unlogged : repairer.log = none) (fillable : repairer.Fillable tables)
    {planned : PlannedRange} (remote : planned.strategy ≠ .logScan)
    (missing : ∀ height ∈ planned.range, tables.Missing repairer.settings.fromGenesis height) :
    repairer.verdict planned = .emitted planned.range.size ∧
      planned.range.heights.map repairer.fetcher.recordAt? =
        (repairer.toWrite planned).map some := by
  rw [toWriteUnlogged unlogged fillable.fresh missing]
  refine repairer.acquiredOfFull remote fun height inside => ?_
  obtain ⟨record, found, _⟩ := fillable.complete height (missing height inside)
  rw [found]
  rfl

variable {replica : σ → Replica} {before after : Committer σ} {reports : List RangeReport}
  {gaps : List HeightRange}

/-- What was written for ranges that were missing: the records of their heights. -/
theorem writtenWhole (unlogged : repairer.log = none) (fillable : repairer.Fillable tables)
    (remote : ∀ report ∈ reports, report.planned.strategy ≠ .logScan)
    (attempted : ∀ report ∈ reports, report.outcome.isSkipped = false)
    (missing : ∀ report ∈ reports, ∀ height ∈ report.planned.range,
      tables.Missing repairer.settings.fromGenesis height) :
    repairer.writtenForAll reports = repairer.fetcher.records
      ((reports.map fun entry => entry.planned.range).flatMap HeightRange.heights) := by
  induction reports with
  | nil => rfl
  | cons report rest inductionHypothesis =>
      have here := List.mem_cons_self (a := report) (l := rest)
      have own := (acquiredWhole unlogged fillable (remote report here) (missing report here)).2
      rw [writtenForAllCons, List.map_cons, List.flatMap_cons, Fetcher.recordsAppend,
        Fetcher.recordsOfMap own, writtenFor, attempted report here,
        inductionHypothesis (fun other later => remote other (List.mem_cons_of_mem _ later))
          (fun other later => attempted other (List.mem_cons_of_mem _ later))
          fun other later => missing other (List.mem_cons_of_mem _ later)]
      rfl

/-- The heights of ranges that were missing are filled by a trail through the ranges. -/
theorem visibleOfProgress (unlogged : repairer.log = none)
    (fillable : repairer.Fillable (replica before.sink).visible)
    (remote : ∀ report ∈ reports, report.planned.strategy ≠ .logScan)
    (progress : repairer.Progress replica before reports after) :
    (replica after.sink).visible = (replica before.sink).visible.writeAll false
      (repairer.fetcher.records
        ((reports.map fun entry => entry.planned.range).flatMap HeightRange.heights)) := by
  rw [progress.written.visible, writtenWhole unlogged fillable remote]
  · exact fun _ => attemptedOfProgress unlogged fillable.fresh fillable.fits progress
  · exact fun _ => missingOfProgress progress

/-- Ranges that were missing are all repaired if they did not end the run. -/
theorem repairedOfProgress (unlogged : repairer.log = none)
    (fillable : repairer.Fillable (replica before.sink).visible)
    (remote : ∀ report ∈ reports, report.planned.strategy ≠ .logScan)
    (progress : repairer.Progress replica before reports after) :
    ∀ report ∈ reports, report.outcome.isRepaired = true := by
  intro report listed
  have attempted := attemptedOfProgress unlogged fillable.fresh fillable.fits progress listed
  have missing := missingOfProgress progress listed
  cases outcome : report.outcome with
  | repaired emitted applied commits => rfl
  | skipped height =>
      rw [outcome] at attempted
      cases attempted
  | failed error =>
      rcases progress.written.failed report listed error outcome with
        failed | ⟨record, member, refused⟩
      · rw [(acquiredWhole unlogged fillable (remote report listed) missing).1] at failed
        cases failed
      · obtain ⟨inside, found⟩ := fetchedOfToWrite unlogged fillable.fresh missing member
        obtain ⟨other, same, storable⟩ := fillable.complete _ (missing _ inside)
        obtain rfl := Option.some.inj (found.symm.trans same)
        rw [storable] at refused
        cases refused

/-- A missing range ends a run only where a transaction could not be opened or committed, when not
all of its records were written. -/
theorem brokenRange (backed : repairer.store.Backed replica) (unlogged : repairer.log = none)
    (fillable : repairer.Fillable tables) {planned : PlannedRange}
    (detected : planned.origin = .detected)
    (remote : planned.strategy ≠ .logScan)
    (missing : ∀ height ∈ planned.range, tables.Missing repairer.settings.fromGenesis height)
    (closed : before.inTransaction = false) {cause : RunError}
    (answer : repairer.repairRange planned before = (.error cause, after)) :
    ∃ taken left, planned.range.heights = taken ++ left ∧ left ≠ [] ∧
      Breaks repairer.store replica false planned.range (replica before.sink)
        (repairer.fetcher.records taken) cause after := by
  have whole := acquiredWhole unlogged fillable remote missing
  rcases rangeBreaks backed closed answer with ⟨fault, present⟩ | ⟨_, ended | losing⟩
  · rw [presentIff backed _ detected] at present
    obtain ⟨held, fine, _⟩ := Replica.storeHoldsIff (replica before.sink)
      (Tables.missingFits fillable.fits (missing _ planned.range.startMem))
    rw [show (replica before.sink).visible.holds (UInt64.ofNat planned.range.start) = .ok held
      from fine] at present
    cases present
  · rw [whole.1] at ended
    cases ended
  · obtain ⟨done, rest, split, some, breaks⟩ := losing
    have records := whole.2
    rw [split] at records
    obtain ⟨taken, left, same, rfl, length⟩ := Fetcher.splitOfMap records
    rw [detected] at breaks
    refine ⟨taken, left, same, ?_, breaks⟩
    intro empty
    rw [empty] at length
    exact some trivial (List.length_eq_zero_iff.mp length.symm)

theorem remoteOfTrail (unlogged : repairer.log = none) {done later : List PlannedRange}
    (split : repairer.planOf gaps = done ++ later)
    (trail : repairer.Trail done before reports after) :
    ∀ report ∈ reports, report.planned.strategy ≠ .logScan := by
  intro report listed
  have planned : report.planned ∈ done := plannedOfTrail trail ▸ List.mem_map_of_mem listed
  exact remoteOfPlan unlogged (split ▸ List.mem_append_left later planned)

/-- A range that is planned for what was detected has missing heights. -/
theorem missingOfDetected (backed : repairer.store.Backed replica)
    (detected : repairer.store.detectGaps repairer.settings.fromGenesis before.sink = .ok gaps)
    {range : HeightRange} (member : range ∈ gaps) :
    ∀ height ∈ range, (replica before.sink).visible.Missing
      repairer.settings.fromGenesis height := by
  intro height inside
  rw [Store.detectGapsBacked backed] at detected
  obtain ⟨_, _, exact⟩ := Replica.detectGapsIff.mp detected
  exact (exact height).mp ⟨range, member, inside⟩

section Run

variable (backed : repairer.store.Backed replica) (unlogged : repairer.log = none)
  (fillable : repairer.Fillable (replica before.sink).visible)
  (closed : before.inTransaction = false) (quiet : (replica before.sink).working = none)
  (detected : repairer.store.detectGaps repairer.settings.fromGenesis before.sink = .ok gaps)
include backed unlogged fillable closed quiet detected

/-- A run that comes to its end repairs all ranges that it detected, and their heights are filled. -/
theorem filledOfFinished {report : RepairReport}
    (finished : repairer.run .missing before = (.ok report, after)) :
    (∀ entry ∈ report.ranges, entry.outcome.isRepaired = true) ∧
      replica after.sink = .ofTables ((replica before.sink).visible.writeAll false
        (repairer.fetcher.records (gaps.flatMap HeightRange.heights))) := by
  have progress := (reportsOfRun backed (consistentOfClosed closed) finished).toProgress
  have trails := repairer.runTrail before
  rw [finished] at trails
  obtain ⟨ranges, start, last, found, _, trail, _⟩ := trails
  obtain rfl := Except.ok.inj (detected.symm.trans found)
  have split : repairer.planOf gaps = repairer.planOf gaps ++ [] := (List.append_nil _).symm
  have remote := remoteOfTrail unlogged split trail
  have visible := visibleOfProgress unlogged fillable remote progress
  have whole := rangesOfTrail split trail
  rw [List.map_nil, List.append_nil] at whole
  rw [← whole] at visible
  refine ⟨repairedOfProgress unlogged fillable remote progress, ?_⟩
  rw [← visible]
  exact eqOfClosed (of_not_not fun busy => progress.written.idle busy quiet)

/-- When a run is ended early, the first ranges that it detected are filled, and of the next one the
first heights. -/
theorem filledOfBroken {cause : RunError}
    (broken : repairer.run .missing before = (.error cause, after)) :
    (∃ stage fault, cause = .commit stage fault) ∧
      after.inTransaction = false ∧ ¬repairer.store.Reliable replica ∧
      ∃ first current later taken left, gaps = first ++ current :: later ∧
        current.heights = taken ++ left ∧ left ≠ [] ∧ after.range = some current ∧
        replica after.sink = .ofTables ((replica before.sink).visible.writeAll false
          (repairer.fetcher.records (first.flatMap HeightRange.heights ++ taken))) := by
  have trails := repairer.runTrail before
  rw [broken] at trails
  rcases trails with ⟨fault, found, _⟩ |
    ⟨ranges, start, done, current, later, reports, middle, found, alikeStart, split, trail, ended⟩
  · rw [detected] at found
    cases found
  obtain rfl := Except.ok.inj (detected.symm.trans found)
  have progress := progressAlike alikeStart (⟨rfl, rfl, rfl, rfl, rfl⟩ : Alike middle middle)
    (progressOfTrail backed (consistentAlike alikeStart (consistentOfClosed closed))
      (alikeStart.sink ▸ detected) split trail)
  have visible := visibleOfProgress unlogged fillable (remoteOfTrail unlogged split trail) progress
  have whole := rangesOfTrail split trail
  rw [List.map_cons] at whole
  have planned : current ∈ repairer.planOf gaps := by simp [split]
  have among : current.range ∈ gaps := by simp [whole]
  have missing := missingOfDetected backed detected among
  have middleClosed : middle.inTransaction = false := by
    by_contra busy
    have earlier := progress.written.inTransaction (by simpa using busy)
    simp [closed] at earlier
  obtain ⟨taken, left, heights, some, breaks⟩ := brokenRange backed unlogged fillable
    (repairer.planOfDetected planned) (remoteOfPlan unlogged planned) missing middleClosed ended
  obtain ⟨state, unreliable⟩ := breaks.left
    (of_not_not fun busy => progress.written.idle busy quiet)
  refine ⟨breaks.cause, breaks.closed, unreliable, _, current.range, _, taken, left, whole,
    heights, some, breaks.range, ?_⟩
  rw [state, visible, Fetcher.recordsAppend, Tables.writeAllAppend]

/-- A run over a reliable store repairs all ranges that it detects. -/
theorem runOfReliable (reliable : repairer.store.Reliable replica) :
    ∃ report after, repairer.run .missing before = (.ok report, after) ∧
      (∀ entry ∈ report.ranges, entry.outcome.isRepaired = true) ∧
      replica after.sink = .ofTables ((replica before.sink).visible.writeAll false
        (repairer.fetcher.records (gaps.flatMap HeightRange.heights))) := by
  cases finished : repairer.run .missing before with
  | mk result after =>
      cases result with
      | ok report =>
          exact ⟨report, after, rfl,
            filledOfFinished backed unlogged fillable closed quiet detected finished⟩
      | error cause =>
          have comes := filledOfBroken backed unlogged fillable closed quiet detected finished
          exact absurd reliable comes.2.2.1

end Run

/-- The blank blocks fill the tables that have a gap. -/
theorem blanksFillable : blanks.Fillable .gapped := by
  have answers (height : Nat) (between : height = 1 ∨ height = 2) :
      blanks.fetcher.recordAt? height = some (.blank height) := by
    rcases between with rfl | rfl
    · rfl
    · rfl
  refine ⟨Tables.fitsGapped, ⟨?_, ?_, ?_⟩, ?_⟩
  · exact fun height record _ => Fetcher.blanksUpserts (by decide) height record
  · intro height record missing found
    obtain ⟨_, rfl⟩ := Fetcher.recordAtBlanks found
    rcases (Tables.missingGapped _ height).mp missing with rfl | rfl
    · decide +kernel
    · decide +kernel
  · intro first second firstRecord secondRecord firstMissing secondMissing firstFound secondFound
    obtain ⟨_, rfl⟩ := Fetcher.recordAtBlanks firstFound
    obtain ⟨_, rfl⟩ := Fetcher.recordAtBlanks secondFound
    rcases (Tables.missingGapped _ first).mp firstMissing with rfl | rfl <;>
      rcases (Tables.missingGapped _ second).mp secondMissing with rfl | rfl <;>
      decide +kernel
  · intro height missing
    have between := (Tables.missingGapped _ height).mp missing
    refine ⟨_, answers height between, ?_⟩
    rcases between with rfl | rfl
    · decide +kernel
    · decide +kernel

end Repairer

end Backfill
