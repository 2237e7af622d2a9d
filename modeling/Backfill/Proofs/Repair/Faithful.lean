/-
This file shows that the report of a run is faithful to its plan. It has one entry for each planned
range, and a failure names the whole of its range, whichever part of it, window or source failed.
-/

import Backfill.Proofs.Repair.Fallback

namespace Backfill

namespace RangeError

/-- A failure of a range lists the first ones of the heights that it counts, all of them in the
range and ascending. -/
structure Names (range : HeightRange) (error : RangeError) : Prop where
  place : error.range = range
  partly : ∀ listed count, error.failure = .partly listed count →
    1 ≤ count ∧ listed.Pairwise (· < ·) ∧ listed.length = min 10 count ∧
      ∀ height ∈ listed, height ∈ range

/-- A failure of a fetch: the source was unavailable, or some heights failed. -/
def OfFetch (error : RangeError) : Prop :=
  (∃ reason, error.failure = .unavailable reason) ∨
    ∃ listed count, error.failure = .partly listed count

/-- A failure that counts no heights names its range. -/
theorem namesOfOther (range : HeightRange) {failure : RangeFailure}
    (other : ∀ listed count, failure ≠ .partly listed count) : Names range ⟨range, failure⟩ :=
  ⟨rfl, fun listed count failed => absurd failed (other listed count)⟩

/-- The heights of a range that failed are counted, and the first ones are listed. -/
theorem namesOfHeights {range : HeightRange} {heights : List Nat} (some : heights ≠ [])
    (inside : ∀ height ∈ heights, height ∈ range) : Names range (.ofHeights range heights) := by
  refine ⟨rfl, ?_⟩
  rintro _ _ ⟨⟩
  refine ⟨?_, ?_, List.length_take, ?_⟩
  · rw [Nat.one_le_iff_ne_zero, ne_eq, List.length_eq_zero_iff, sortedHeightsEqNil]
    exact some
  · exact (sortedHeightsAscend heights).sublist (List.take_sublist _ _)
  · intro height listed
    exact inside height ((memSortedHeights heights height).mp (List.mem_of_mem_take listed))

/-- The failures of heights of a range make a failure of the range. -/
theorem namesOfFailures {range : HeightRange} {failures : List (Nat × FetchError)} {fetched : Nat}
    (some : failures ≠ []) (inside : ∀ failure ∈ failures, failure.1 ∈ range) :
    Names range (.ofFailures range failures fetched) ∧
      OfFetch (.ofFailures range failures fetched) := by
  unfold ofFailures
  split
  · exact ⟨namesOfOther _ (by simp), .inl ⟨_, rfl⟩⟩
  · refine ⟨namesOfHeights (by simpa using some) ?_, .inr ⟨_, _, rfl⟩⟩
    intro height failed
    obtain ⟨failure, member, rfl⟩ := List.mem_map.mp failed
    exact inside failure member

end RangeError

namespace Fetcher

variable {fetcher : Fetcher}

/-- Only heights that are asked for can fail. -/
theorem memFailures {heights : List Nat} {failure : Nat × FetchError}
    (failed : failure ∈ fetcher.failures heights) : failure.1 ∈ heights := by
  have listed := List.mem_map_of_mem (f := Prod.fst) failed
  rw [failuresHeights] at listed
  exact List.mem_of_mem_filter listed

/-- Requests one by one fail for the heights that failed. -/
theorem acquireSequentialFails {range : HeightRange} {error : RangeError} {deeds : List Deed}
    (failed : fetcher.acquireSequential .observer range [] = (.failed error, deeds)) :
    error.Names range ∧ error.OfFetch := by
  unfold acquireSequential at failed
  by_cases calm : fetcher.Calm range.heights
  · rw [fetchFromObserved range range.size range.start .blank [] calm, FetchTally.close] at failed
    split at failed
    · cases failed
    · rename_i some
      obtain rfl := Acquired.failed.inj (Prod.mk.inj failed).1
      refine RangeError.namesOfFailures (by simpa [FetchTally.blank] using some)
        fun failure member => ?_
      have listed : failure ∈ fetcher.failures range.heights := by
        simpa [FetchTally.blank, HeightRange.heights] using member
      exact (range.memHeights _).mp (memFailures listed)
  · obtain ⟨_, ended, _⟩ := fetchFromPanicked range range.size range.start .blank [] calm
    rw [ended] at failed
    cases failed

/-- A window fails for those of its heights that failed. -/
theorem acquireWindowFails {crew : Crew} {range window : HeightRange} {emitted : Nat}
    {before after : List Deed} {error : RangeError}
    (failed : fetcher.acquireWindow .observer crew range window emitted before =
      (.failed error, after)) :
    ∃ fetched, fetcher.failures window.heights ≠ [] ∧
      error = .ofFailures range (fetcher.failures window.heights) fetched := by
  by_cases calm : fetcher.Calm window.heights
  · rw [acquireWindowObserved crew range window emitted before calm] at failed
    split at failed
    · cases failed
    · rename_i some
      exact ⟨_, some, (Acquired.failed.inj (Prod.mk.inj failed).1).symm⟩
  · rw [acquireWindowPanicked crew range window emitted before calm] at failed
    cases failed

/-- Windows of a range fail as the first one of them that fails. -/
theorem acquireEachFails {crew : Crew} {range : HeightRange} {windows : List HeightRange}
    {emitted : Nat} {before after : List Deed} {error : RangeError}
    (inside : ∀ window ∈ windows, ∀ height ∈ window.heights, height ∈ range)
    (failed : fetcher.acquireEach .observer crew range windows emitted before =
      (.failed error, after)) :
    error.Names range ∧ error.OfFetch := by
  induction windows generalizing emitted before with
  | nil => cases failed
  | cons window rest inductionHypothesis =>
      obtain ⟨insideFirst, insideRest⟩ := List.forall_mem_cons.mp inside
      rw [acquireEach] at failed
      cases first : fetcher.acquireWindow .observer crew range window emitted before with
      | mk acquired next =>
          rw [first] at failed
          cases acquired with
          | emitted count => exact inductionHypothesis insideRest failed
          | ended cause => cases failed
          | failed other =>
              obtain rfl := Acquired.failed.inj (Prod.mk.inj failed).1
              obtain ⟨fetched, some, rfl⟩ := acquireWindowFails first
              exact RangeError.namesOfFailures some fun failure member =>
                insideFirst _ (memFailures member)

/-- A crew fails for heights of the range. -/
theorem acquireParallelFails {crew : Crew} {width : Nat} {range : HeightRange}
    {error : RangeError} {deeds : List Deed}
    (failed : fetcher.acquireParallel .observer crew width range [] = (.failed error, deeds)) :
    error.Names range ∧ error.OfFetch := by
  rw [acquireParallel, acquireWindowsEach] at failed
  exact acquireEachFails (fun window member height inside =>
    (range.memHeights height).mp (HeightRange.windowSubset member inside)) failed

end Fetcher

/-- An acquisition that makes the same calls to all consumers fails with any of them as it does before
the observer. -/
theorem failsAsObserved (acquire : ∀ κ : Type, Consumer κ → κ → Acquired × κ)
    {acquired : Acquired} {calls : List Call}
    (same : ∀ (κ : Type) (consumer : Consumer κ) (state : κ),
      acquire κ consumer state = consumer.perform .ended acquired calls state)
    {κ : Type} {consumer : Consumer κ} {state next : κ} {error : RangeError}
    (failed : acquire κ consumer state = (.failed error, next)) :
    acquire (List Deed) .observer [] = (.failed error, Call.deeds calls) := by
  rw [same, Consumer.perform] at failed
  rw [same, Consumer.performObserver, List.nil_append]
  cases followed : consumer.follow calls state with
  | mk result last =>
      rw [followed] at failed
      cases result with
      | error cause => cases failed
      | ok => rw [(Prod.mk.inj failed).1]

namespace Repairer

open Committer

variable {σ κ : Type} {repairer : Repairer σ} {planned : PlannedRange}

/-- A fetch fails as a fetch, and names its range. -/
theorem fetchRemoteFails {consumer : Consumer κ} {strategy : Strategy} {range : HeightRange}
    {state next : κ} {error : RangeError}
    (failed : repairer.fetchRemote consumer strategy range state = (.failed error, next)) :
    error.Names range ∧ error.OfFetch := by
  obtain ⟨acquired, calls, same, _⟩ := repairer.fetchRemotePerforms strategy range
  have observed := failsAsObserved
    (fun _ consumer => repairer.fetchRemote consumer strategy range) (fun _ => same) failed
  cases strategy with
  | sequential => exact Fetcher.acquireSequentialFails observed
  | parallel => exact Fetcher.acquireParallelFails observed
  | logScan => exact Fetcher.acquireParallelFails observed

/-- The failure of a part is told of the whole range. -/
theorem fallbackNames {range part : HeightRange} {error : RangeError} (logError : RangeError)
    (within : ∀ height ∈ part, height ∈ range) (names : error.Names part) (fetch : error.OfFetch) :
    (fallbackFailed range logError error).Names range ∧
      (fallbackFailed range logError error).OfFetch := by
  unfold fallbackFailed
  rcases fetch with ⟨reason, failure⟩ | ⟨listed, count, failure⟩
  · rw [failure]
    exact ⟨RangeError.namesOfOther _ (by simp), .inl ⟨_, rfl⟩⟩
  · rw [failure]
    obtain ⟨positive, ascending, length, inside⟩ := names.partly listed count failure
    refine ⟨⟨rfl, ?_⟩, .inr ⟨_, _, rfl⟩⟩
    rintro _ _ ⟨⟩
    exact ⟨positive, ascending, length, fun height member => within height (inside height member)⟩

/-- The parts that a log lacked fail as the first of them that fails. -/
theorem fetchPartsFails {consumer : Consumer κ} {range : HeightRange} {logError : RangeError}
    {parts : List HeightRange} {emitted : Nat} {state next : κ} {error : RangeError}
    (within : ∀ part ∈ parts, ∀ height ∈ part, height ∈ range)
    (failed : repairer.fetchParts consumer range logError parts emitted state =
      (.failed error, next)) :
    error.Names range ∧ error.OfFetch := by
  induction parts generalizing emitted state with
  | nil => cases failed
  | cons part rest inductionHypothesis =>
      obtain ⟨withinFirst, withinRest⟩ := List.forall_mem_cons.mp within
      rw [fetchParts] at failed
      split at failed
      · exact inductionHypothesis withinRest failed
      · rename_i remote
        obtain rfl := Acquired.failed.inj (Prod.mk.inj failed).1
        obtain ⟨names, fetch⟩ := fetchRemoteFails remote
        exact fallbackNames logError withinFirst names fetch
      · cases failed

/-- A scan that leaves nothing to another source fails because the log could not be read or because of
damage, never for heights that are missing. -/
theorem closeFails {reader : LogReader} {range : HeightRange} {error : RangeError}
    (failed : (reader.outcome range).close = (.failed error, [])) :
    error.Names range ∧
      (error.OfFetch ∨ ∃ errors position, error.failure = .corrupt errors position) := by
  have place := (reader.outcomeFinds range).1.place
  -- A scan that fell short leaves heights to another source.
  have long (short : (reader.outcome range).ending = .stopped .endOfLog ∨
      (reader.outcome range).ending = .stopped .boundExceeded) : False := by
    obtain ⟨some, close⟩ := LogReader.closeOfShort short
    exact some (Prod.mk.inj (close.symm.trans failed)).2
  unfold ScanResult.close at failed
  split at failed
  · cases failed
  · obtain rfl := Acquired.failed.inj (Prod.mk.inj failed).1
    rw [place]
    exact ⟨RangeError.namesOfOther _ (by simp), .inr ⟨_, _, rfl⟩⟩
  · exact absurd (.inl ‹_›) long
  · exact absurd (.inr ‹_›) long
  · obtain rfl := Acquired.failed.inj (Prod.mk.inj failed).1
    rw [place]
    exact ⟨RangeError.namesOfOther _ (by simp), .inl (.inl ⟨_, rfl⟩)⟩
  · cases failed

/-- The parts that make up for a log lie in the range. -/
theorem withinOfLacking {reader : LogReader} {range : HeightRange} {acquired : Acquired}
    {lacking : List Nat} (closed : (reader.outcome range).close = (acquired, lacking)) :
    ∀ part ∈ collapse lacking, ∀ height ∈ part, height ∈ range := by
  intro part member height inside
  have covered : height ∈ (collapse lacking).flatMap HeightRange.heights :=
    List.mem_flatMap.mpr ⟨part, member, (part.memHeights height).mpr inside⟩
  rw [collapseHeights, memSortedHeights] at covered
  obtain ⟨unrefused, finds⟩ := reader.outcomeFinds range
  have left := (LogReader.suppliesOfFinds unrefused finds).short
  rw [closed] at left
  dsimp only at left
  rw [(left (List.ne_nil_of_mem covered)).2] at covered
  exact (range.memHeights height).mp (List.mem_of_mem_filter covered)

/-- A scan of a log fails as a fetch that was to make up for the log, or for damage. -/
theorem scanLogFails {consumer : Consumer κ} {reader : LogReader} {range : HeightRange}
    {state next : κ} {error : RangeError}
    (failed : repairer.scanLog consumer reader range state = (.failed error, next)) :
    error.Names range ∧
      (error.OfFetch ∨ ∃ errors position, error.failure = .corrupt errors position) := by
  obtain ⟨calls, same, _, _⟩ := reader.acquireOutcome range
  have scanned := same consumer state
  rw [Consumer.perform] at scanned
  cases followed : consumer.follow calls state with
  | mk result last =>
      rw [followed] at scanned
      cases result with
      | error cause =>
          rw [scanLog, scanned] at failed
          cases failed
      | ok =>
          cases closed : (reader.outcome range).close with
          | mk acquired lacking =>
              rw [closed] at scanned
              cases acquired with
              | emitted count =>
                  rw [scanLog, scanned] at failed
                  cases failed
              | ended cause =>
                  rw [scanLog, scanned] at failed
                  cases failed
              | failed logError =>
                  cases lacking with
                  | nil =>
                      rw [scanLog, scanned] at failed
                      obtain rfl := Acquired.failed.inj (Prod.mk.inj failed).1
                      exact closeFails closed
                  | cons height more =>
                      rw [scanLogOfShort scanned (List.cons_ne_nil height more)] at failed
                      split at failed
                      · cases failed
                      · obtain ⟨names, fetch⟩ := fetchPartsFails (withinOfLacking closed) failed
                        exact ⟨names, .inl fetch⟩

/-- The failure of a planned range, as a report is to tell it. -/
structure Told (planned : PlannedRange) (error : RangeError) : Prop where
  names : error.Names planned.range
  missing : ∀ listed count, error.failure ≠ .missing listed count
  corrupt : ∀ errors position, error.failure = .corrupt errors position →
    planned.strategy = .logScan

theorem toldOfFetch {error : RangeError} (names : error.Names planned.range)
    (fetch : error.OfFetch) : Told planned error := by
  refine ⟨names, ?_, ?_⟩
  · intro listed count failure
    simp [RangeError.OfFetch, failure] at fetch
  · intro errors position failure
    simp [RangeError.OfFetch, failure] at fetch

/-- Whatever source a planned range is acquired from, its failure is told of the whole range. -/
theorem acquireFails {consumer : Consumer κ} {state next : κ} {error : RangeError}
    (failed : repairer.acquire consumer planned state = (.failed error, next)) :
    Told planned error := by
  unfold acquire at failed
  split at failed
  · rename_i scans
    split at failed
    · obtain ⟨names, fetch | ⟨errors, position, corrupt⟩⟩ := scanLogFails failed
      · exact toldOfFetch names fetch
      · exact ⟨names, by simp [corrupt], fun _ _ _ => scans⟩
    · obtain rfl := Acquired.failed.inj (Prod.mk.inj failed).1
      exact toldOfFetch (RangeError.namesOfOther _ (by simp)) (.inl ⟨_, rfl⟩)
  · obtain ⟨names, fetch⟩ := fetchRemoteFails failed
    exact toldOfFetch names fetch

/-- A planned range that fails is told of as a whole, also where the sink refused records. -/
theorem repairRangeFails {before after : Committer σ} {error : RangeError}
    (honest : repairer.fetcher.Honest planned.range)
    (failed : repairer.repairRange planned before = (.ok (.failed error), after)) :
    Told planned error := by
  obtain ⟨delivered, concludes⟩ := concludesOfEnded rfl failed
  rcases failedOfConcludes concludes rfl with verdict | ⟨_, some, rfl⟩
  · exact acquireFails (Prod.ext verdict rfl)
  · refine toldOfFetch (RangeError.namesOfHeights (by simpa [Record.heights] using some) ?_)
      (.inr ⟨_, _, rfl⟩)
    intro height refused
    obtain ⟨record, member, rfl⟩ := List.mem_map.mp refused
    obtain ⟨entry, handed, rfl⟩ := List.mem_map.mp member
    have written := List.mem_map_of_mem (f := Prod.fst) (List.mem_of_mem_filter handed)
    rw [delivered] at written
    obtain ⟨original, brought, same⟩ := List.mem_map.mp written
    rw [← same, repeatableHeight]
    exact repairer.handedOnInside honest brought

/-- A scan is planned only where there is a log. -/
theorem loggedOfPlan {mode : RepairMode} {state : σ} {plan : List PlannedRange}
    (made : repairer.plan mode state = .ok plan) (member : planned ∈ plan)
    (scans : planned.strategy = .logScan) : ∃ reader, repairer.log = some reader := by
  have chosen : ∃ origin ranges, plan =
      PlannedRange.ofRanges repairer.settings.thresholds repairer.log.isSome origin ranges := by
    unfold Repairer.plan at made
    split at made
    · exact ⟨_, _, (Except.ok.inj made).symm⟩
    · split at made
      · exact ⟨_, _, (Except.ok.inj made).symm⟩
      · cases made
  obtain ⟨origin, ranges, rfl⟩ := chosen
  cases log : repairer.log with
  | some reader => exact ⟨reader, rfl⟩
  | none =>
      rw [log] at member
      exact absurd scans (remoteOfRanges member)

/-- The report of a run has the entries of the plan that was made before it, and tells a failure of
a whole range only. -/
theorem reportTellsPlan (repairer : Repairer σ) {mode : RepairMode} {before : Committer σ}
    (honest : ∀ plan, repairer.plan mode before.sink = .ok plan →
      ∀ planned ∈ plan, repairer.fetcher.Honest planned.range) :
    (∀ report after, repairer.run mode before = (.ok report, after) →
      repairer.plan mode before.sink = .ok (report.ranges.map RangeReport.planned) ∧
        ∀ entry ∈ report.ranges, ∀ error, entry.outcome = .failed error →
          Told entry.planned error) ∧
      (∀ plan, repairer.plan mode before.sink = .ok plan → ∀ planned ∈ plan,
        planned.strategy = .logScan → ∃ reader, repairer.log = some reader ∧
          ∀ (κ : Type) (consumer : Consumer κ) (state : κ),
            repairer.acquire consumer planned state =
              repairer.scanLog consumer reader planned.range state) ∧
      ∀ (κ : Type) (consumer : Consumer κ) strategy part state error next,
        repairer.fetchRemote consumer strategy part state = (.failed error, next) →
          error.OfFetch := by
  refine ⟨fun report after ran => ?_, fun plan made planned member scans => ?_, ?_⟩
  · obtain ⟨plan, start, last, made, trail⟩ := trailOfRun ran
    have entries := plannedOfTrail trail
    refine ⟨made.trans (congrArg Except.ok entries.symm), fun entry listed error failed => ?_⟩
    obtain ⟨first, next, repaired⟩ := repairedOfTrail trail entry listed
    have member : entry.planned ∈ plan := entries ▸ List.mem_map_of_mem listed
    rw [failed] at repaired
    exact repairRangeFails (honest plan made entry.planned member) repaired
  · obtain ⟨reader, log⟩ := loggedOfPlan made member scans
    exact ⟨reader, log, fun _ consumer state => acquireOfScan log scans consumer state⟩
  · intro κ consumer strategy part state error next failed
    exact (fetchRemoteFails failed).2

theorem lameRuns : (lame.run .missing (.new (.ofTables .gapped))).1 =
    .ok ⟨[⟨gap .sequential, .failed ⟨Tables.gap, .partly [1] 1⟩⟩]⟩ := by
  have fails : (lame.repairRange (gap .sequential)
      ((Committer.new (.ofTables .gapped)).log (lame.planEvent [gap .sequential]))).1 =
        .ok (.failed ⟨Tables.gap, .partly [1] 1⟩) := by
    decide +kernel
  have planned : lame.planOf [Tables.gap] = [gap .sequential] := rfl
  rw [runOfGaps _ (Replica.detectGapsGapped true), planned, runPlan]
  cases repaired : lame.repairRange (gap .sequential)
      ((Committer.new (.ofTables .gapped)).log (lame.planEvent [gap .sequential])) with
  | mk result after =>
      rw [repaired] at fails
      obtain rfl : result = _ := fails
      simp only [repairRanges, repaired]

/-- The run of the repairer that cannot fetch the height one reports the gap, and names this
height. -/
theorem reportTellsGap :
    lame.plan .missing (.ofTables .gapped) = .ok [gap .sequential] ∧
      (lame.run .missing (.new (.ofTables .gapped))).1 =
        .ok ⟨[⟨gap .sequential, .failed ⟨Tables.gap, .partly [1] 1⟩⟩]⟩ ∧
      Told (gap .sequential) ⟨Tables.gap, .partly [1] 1⟩ := by
  have plans : lame.plan .missing (.ofTables .gapped) = .ok [gap .sequential] :=
    lame.planOfGaps (Replica.detectGapsGapped true)
  have honest : ∀ plan, lame.plan .missing (.ofTables .gapped) = .ok plan →
      ∀ planned ∈ plan, lame.fetcher.Honest planned.range := by
    intro plan made planned member
    obtain rfl := Except.ok.inj (made.symm.trans plans)
    obtain rfl := List.mem_singleton.mp member
    exact lameHonest
  have tells := (lame.reportTellsPlan honest).1 _ _ (Prod.ext lameRuns rfl)
  exact ⟨plans, lameRuns, tells.2 _ List.mem_cons_self _ rfl⟩

end Repairer

end Backfill
