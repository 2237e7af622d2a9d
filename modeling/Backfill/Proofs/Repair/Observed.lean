/-
This file says what is done for a planned range beside logging events: which heights are asked for,
which records are handed on, and when they are made durable.
-/

import Backfill.Proofs.Acquisition.Parallel
import Backfill.Proofs.Repair.Sources

namespace Backfill

namespace Fetcher

variable {fetcher : Fetcher}

/-- Requests one by one hand on the records of the heights. -/
theorem recordsTold (fetcher : Fetcher) (heights : List Nat) :
    Deed.records (heights.flatMap fetcher.told) = fetcher.records heights := by
  induction heights with
  | nil => rfl
  | cons height rest inductionHypothesis =>
      rw [List.flatMap_cons, Deed.records, List.filterMap_append, recordsCons]
      rw [Deed.records] at inductionHypothesis
      rw [inductionHypothesis, told]
      cases fetcher.recordAt? height <;> rfl

/-- Parts are asked for in order, each as a whole, up to a height without a record. -/
inductive AsksInOrder (fetcher : Fetcher) : List HeightRange → List Nat → Prop
  | nil : AsksInOrder fetcher [] []
  | whole {part : HeightRange} {rest : List HeightRange} {asked more : List Nat}
      (perm : asked.Perm part.heights)
      (full : ∀ height ∈ part.heights, (fetcher.recordAt? height).isSome)
      (later : AsksInOrder fetcher rest more) : AsksInOrder fetcher (part :: rest) (asked ++ more)
  | last {part : HeightRange} {asked done : List Nat} (rest : List HeightRange)
      (initial : done <+: part.heights) (perm : asked.Perm done)
      (lacking : ∃ height ∈ done, fetcher.recordAt? height = none) :
      AsksInOrder fetcher (part :: rest) asked

/-- What is asked for is an initial part of all heights, in some order. -/
theorem initialOfOrder {parts : List HeightRange} {asked : List Nat}
    (order : fetcher.AsksInOrder parts asked) :
    ∃ done, done <+: parts.flatMap HeightRange.heights ∧ asked.Perm done := by
  induction order with
  | nil => exact ⟨[], List.prefix_rfl, .refl []⟩
  | @whole part rest asked more perm _ _ inductionHypothesis =>
      obtain ⟨done, initial, same⟩ := inductionHypothesis
      rw [List.flatMap_cons]
      exact ⟨part.heights ++ done, (List.prefix_append_right_inj _).mpr initial, perm.append same⟩
  | @last part asked done rest initial perm _ =>
      rw [List.flatMap_cons]
      exact ⟨done, initial.trans (List.prefix_append _ _), perm⟩

end Fetcher

namespace Repairer

variable {σ : Type} {repairer : Repairer σ} {planned : PlannedRange}

/-- An observer sees what acquiring a planned range comes to and which records are handed on. -/
theorem verdictOfObserved {acquired : Acquired} {deeds : List Deed}
    (observed : repairer.acquire .observer planned [] = (acquired, deeds)) :
    repairer.verdict planned = acquired ∧ Call.deeds (repairer.calls planned) = deeds ∧
      repairer.handedOn planned = Deed.records deeds := by
  rw [repairer.acquireEq, Consumer.performObserver, List.nil_append] at observed
  obtain ⟨rfl, rfl⟩ := Prod.mk.inj observed
  exact ⟨rfl, rfl, (Call.recordsOfDeeds _).symm⟩

theorem acquireOfSequential {κ : Type} (sequential : planned.strategy = .sequential)
    (consumer : Consumer κ) (state : κ) :
    repairer.acquire consumer planned state =
      repairer.fetcher.acquireSequential consumer planned.range state := by
  rw [acquire, sequential]
  rfl

/-- A range that is fetched height by height fails exactly for the heights that fail, and the records
of the others are handed on. -/
theorem verdictOfSequential (sequential : planned.strategy = .sequential)
    (calm : repairer.fetcher.Calm planned.range.heights) :
    repairer.verdict planned = FetchTally.close planned.range
        ⟨(repairer.fetcher.records planned.range.heights).length,
          (repairer.fetcher.failures planned.range.heights).reverse⟩ ∧
      repairer.handedOn planned = repairer.fetcher.records planned.range.heights := by
  have observed := Fetcher.fetchFromObserved planned.range planned.range.size planned.range.start
    .blank [] calm
  rw [FetchTally.blank, Nat.zero_add, List.append_nil, List.nil_append] at observed
  obtain ⟨verdict, _, handed⟩ :=
    verdictOfObserved ((acquireOfSequential sequential _ _).trans observed)
  exact ⟨verdict, handed.trans (Fetcher.recordsTold _ _)⟩

/-- A request that ends its worker ends the run. -/
theorem verdictOfPanicked (sequential : planned.strategy = .sequential)
    (panicked : ¬repairer.fetcher.Calm planned.range.heights) :
    repairer.verdict planned = .ended workerPanicked := by
  obtain ⟨deeds, observed, _⟩ := Fetcher.fetchFromPanicked planned.range planned.range.size
    planned.range.start .blank [] panicked
  exact (verdictOfObserved ((acquireOfSequential sequential _ _).trans observed)).1

/-- A fetch asks for the heights of a range, whatever its strategy is. -/
theorem fetchRemoteAsks (repairer : Repairer σ) (strategy : Strategy) (range : HeightRange) :
    repairer.fetcher.Asks range.heights
      (Deed.heights (repairer.fetchRemote .observer strategy range []).2) := by
  cases strategy with
  | sequential => exact repairer.fetcher.acquireSequentialAsks range
  | parallel => exact repairer.fetcher.acquireParallelAsks repairer.crew _ range
  | logScan => exact repairer.fetcher.acquireParallelAsks repairer.crew _ range

/-- The parts that a log lacked are asked for in order. -/
theorem fetchPartsAsks (repairer : Repairer σ) (range : HeightRange) (logError : RangeError)
    (parts : List HeightRange) (emitted : Nat) (before : List Deed) :
    ∃ acquired deeds,
      repairer.fetchParts .observer range logError parts emitted before =
          (acquired, before ++ deeds) ∧
        repairer.fetcher.AsksInOrder parts (Deed.heights deeds) := by
  induction parts generalizing emitted before with
  | nil => exact ⟨.emitted emitted, [], by rw [List.append_nil]; rfl, .nil⟩
  | cons part rest inductionHypothesis =>
      let strategy := Strategy.select repairer.settings.thresholds false part.size
      have asks := repairer.fetchRemoteAsks strategy part
      obtain ⟨acquired, calls, same, served⟩ := repairer.fetchRemotePerforms strategy part
      rw [same, Consumer.performObserver, List.nil_append] at asks
      obtain ⟨done, left, split, perm, ends⟩ := asks
      -- A part that was not acquired lacks a record, and that height was asked for.
      have stopped (never : ∀ count, acquired ≠ .emitted count) :
          repairer.fetcher.AsksInOrder (part :: rest) (Deed.heights (Call.deeds calls)) := by
        refine .last rest ⟨left, split.symm⟩ perm ?_
        rcases ends with rfl | lacking
        · by_contra full
          rw [List.append_nil] at split
          refine never _ (served.complete fun height inside => ?_)
          rw [Option.isSome_iff_ne_none]
          exact fun lacking => full ⟨height, split ▸ inside, lacking⟩
        · exact lacking
      rw [fetchParts, same, Consumer.performObserver]
      cases acquired with
      | failed error => exact ⟨_, _, rfl, stopped (by simp)⟩
      | ended cause => exact ⟨_, _, rfl, stopped (by simp)⟩
      | emitted count =>
          have full := (Fetcher.emittedIff served).mp ⟨count, rfl⟩
          have none : left = [] := by
            refine ends.resolve_right ?_
            rintro ⟨height, inside, lacking⟩
            have present := full height (split ▸ List.mem_append_left _ inside)
            simp [lacking] at present
          rw [none, List.append_nil] at split
          obtain ⟨acquired, more, sameRest, order⟩ :=
            inductionHypothesis (emitted + count) (before ++ Call.deeds calls)
          refine ⟨acquired, Call.deeds calls ++ more, ?_, ?_⟩
          · rw [← List.append_assoc]
            exact sameRest
          · rw [Deed.heightsAppend]
            exact .whole (split ▸ perm) full order

end Repairer

end Backfill
