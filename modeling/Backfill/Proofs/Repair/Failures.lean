/-
This file says which heights the failure of a range names. It names the heights that could not be
fetched, and those of refused records only if there are none of the others.
-/

import Backfill.Proofs.Repair.Heights
import Backfill.Proofs.Repair.Observed
import Backfill.Proofs.Repair.Tracked

namespace Backfill.Repairer

open Committer

variable {σ : Type} {repairer : Repairer σ} {planned : PlannedRange} {before after : Committer σ}

/-- The records that the work on a planned range hands to the sink, each with whether it was accepted,
up to the last commit. -/
def delivered (repairer : Repairer σ) (planned : PlannedRange) (before : Committer σ) :
    List (Record × Bool) :=
  (repairer.watched.repairRange planned before.watch).2.sink.delivery.durable

theorem verdictWatched (planned : PlannedRange) :
    repairer.watched.verdict planned = repairer.verdict planned :=
  congrArg Prod.fst (repairer.acquireTraced _ _ _ _)

/-- What comes of a range that is acquired or not, by the records that were handed to the sink. -/
inductive Concludes (range : HeightRange) (handed : List (Record × Bool)) :
    Acquired → RangeOutcome → Prop
  | failed (error : RangeError) : Concludes range handed (.failed error) (.failed error)
  | repaired (emitted commits : Nat) (none : Delivery.refused handed = []) :
      Concludes range handed (.emitted emitted) (.repaired emitted handed.length commits)
  | rejected (emitted : Nat) (some : Delivery.refused handed ≠ []) :
      Concludes range handed (.emitted emitted)
        (.failed (.ofHeights range (Record.heights (Delivery.refused handed))))

/-- A range fails as its acquisition failed, or for the records that were refused. -/
theorem failedOfConcludes {range : HeightRange} {handed : List (Record × Bool)}
    {acquired : Acquired} {outcome : RangeOutcome} {error : RangeError}
    (concludes : Concludes range handed acquired outcome) (failed : outcome = .failed error) :
    acquired = .failed error ∨
      (∃ emitted, acquired = .emitted emitted) ∧ Delivery.refused handed ≠ [] ∧
        error = .ofHeights range (Record.heights (Delivery.refused handed)) := by
  cases concludes with
  | failed other => exact .inl (congrArg Acquired.failed (RangeOutcome.failed.inj failed))
  | repaired => cases failed
  | rejected emitted some => exact .inr ⟨⟨emitted, rfl⟩, some, (RangeOutcome.failed.inj failed).symm⟩

/-- A range is concluded from how it was acquired and which of its records were refused. -/
theorem concludesOfEnds {final last : Committer (Traced σ)} {outcome : RangeOutcome}
    (tracks : Committer.Tracks (repairer.watched.toWrite planned) [] [] final)
    (ends : repairer.watched.Ends planned before.watch final outcome last) :
    Concludes planned.range last.sink.delivery.durable (repairer.verdict planned) outcome := by
  have failed := tracks.failed
  have applied := tracks.applied
  rw [List.map_eq_nil_iff.mp tracks.sent] at failed applied
  rw [List.append_nil] at failed
  rw [← ends.sink] at failed applied
  cases outcome with
  | skipped height => exact absurd rfl (ends.present height)
  | repaired emitted count commits =>
      obtain ⟨verdict, stats⟩ := ends.repaired emitted count commits rfl
      rw [verdictWatched] at verdict
      rw [stats] at failed applied
      rw [verdict, show count = _ from applied]
      exact .repaired emitted commits (List.map_eq_nil_iff.mp failed.symm)
  | failed error =>
      rcases ends.failed error rfl with verdict | ⟨⟨emitted, verdict⟩, some, rfl⟩
      · rw [verdictWatched] at verdict
        rw [verdict]
        exact .failed error
      · have names : RangeError.ofHeights planned.range final.stats.failed =
            .ofHeights planned.range
              (Record.heights (Delivery.refused last.sink.delivery.durable)) := by
          rw [← failed]
          exact RangeError.ofHeightsCongr _ fun height => List.mem_reverse.symm
        rw [verdictWatched] at verdict
        rw [verdict, names]
        refine .rejected emitted fun none => some ?_
        have nothing : final.stats.failed.reverse = [] := failed.trans (congrArg _ none)
        simpa using nothing

/-- A range that did not end the run has handed all its records to the sink, and is concluded from
how it was acquired and which of them were refused. -/
theorem concludesOfEnded {outcome : RangeOutcome} (filled : outcome.isSkipped = false)
    (ended : repairer.repairRange planned before = (.ok outcome, after)) :
    (repairer.delivered planned before).map Prod.fst = repairer.toWrite planned ∧
      Concludes planned.range (repairer.delivered planned before) (repairer.verdict planned)
        outcome := by
  have same : repairer.repairRange planned before = _ :=
    repairer.repairRangeWatched planned before.watch
  unfold delivered
  cases watched : repairer.watched.repairRange planned before.watch with
  | mk result last =>
      rw [ended, watched] at same
      obtain ⟨rfl, _⟩ := Prod.mk.inj same
      have settles := repairer.watched.fillOfCustody False (tracksCustody repairer.store.toSink)
        planned before.watch (tracksStart planned before) False.elim
      rw [fillOfEnded filled watched] at settles
      obtain ⟨final, tracks, ends⟩ := settles
      have delivered := tracks.done
      rw [← ends.sink] at delivered
      exact ⟨delivered.trans (repairer.toWriteTraced _ _), concludesOfEnds tracks ends⟩

/-- The heights of a range that could not be fetched. -/
def unfetched (repairer : Repairer σ) (range : HeightRange) : List Nat :=
  (repairer.fetcher.failures range.heights).map Prod.fst

/-- The heights of the records of a planned range that the sink refused, ascending. -/
def unwritten (repairer : Repairer σ) (planned : PlannedRange) (before : Committer σ) : List Nat :=
  sortedHeights (Record.heights (Delivery.refused (repairer.delivered planned before)))

/-- The heights that could not be fetched ascend. -/
theorem unfetchedAscend (repairer : Repairer σ) (range : HeightRange) :
    (repairer.unfetched range).Pairwise (· < ·) := by
  rw [unfetched, Fetcher.failuresHeights]
  exact range.heightsAscend.filter _

/-- A range that is fetched height by height, without a request that ends its worker, is acquired if
no height failed and else names those that did. -/
theorem verdictOfUnfetched (sequential : planned.strategy = .sequential)
    (calm : repairer.fetcher.Calm planned.range.heights) :
    (repairer.unfetched planned.range = [] ↔ ∃ emitted, repairer.verdict planned = .emitted emitted) ∧
      ∀ range listed count, repairer.verdict planned = .failed ⟨range, .partly listed count⟩ →
        ⟨range, .partly listed count⟩ =
          RangeError.ofHeights planned.range (repairer.unfetched planned.range) := by
  have verdict := (verdictOfSequential sequential calm).1
  rw [FetchTally.close, List.isEmpty_reverse, List.reverse_reverse] at verdict
  rw [unfetched, List.map_eq_nil_iff, ← List.isEmpty_iff]
  split at verdict
  · rename_i none
    refine ⟨⟨fun _ => ⟨_, verdict⟩, fun _ => none⟩, fun range listed count failed => ?_⟩
    rw [verdict] at failed
    cases failed
  · rename_i some
    constructor
    · refine ⟨fun none => absurd none some, ?_⟩
      rintro ⟨emitted, succeeded⟩
      rw [verdict] at succeeded
      cases succeeded
    · intro range listed count failed
      rw [verdict, RangeError.ofFailures] at failed
      split at failed
      · simp at failed
      · exact (Acquired.failed.inj failed).symm

/-- Under an honest fetcher no height both failed to be fetched and has a refused record. -/
theorem unfetchedDisjoint (honest : repairer.fetcher.Honest planned.range)
    (delivered : (repairer.delivered planned before).map Prod.fst =
      (repairer.fetcher.records planned.range.heights).map repeatable) :
    (repairer.unfetched planned.range).Disjoint (repairer.unwritten planned before) := by
  intro height failed refused
  rw [unfetched, Fetcher.failuresHeights, List.mem_filter] at failed
  rw [unwritten, memSortedHeights, Record.heights, List.mem_map] at refused
  obtain ⟨record, member, rfl⟩ := refused
  have handed : record ∈ (repairer.delivered planned before).map Prod.fst := by
    obtain ⟨entry, inside, rfl⟩ := List.mem_map.mp member
    exact List.mem_map_of_mem (List.mem_of_mem_filter inside)
  rw [delivered] at handed
  obtain ⟨original, brought, rfl⟩ := List.mem_map.mp handed
  obtain ⟨height, inside, found⟩ := List.mem_filterMap.mp brought
  rw [repeatableHeight, honest height ((planned.range.memHeights height).mp inside) _ found] at failed
  cases fetched : (repairer.fetcher height).fetched <;>
    simp_all [Fetcher.recordAt?, Fetcher.failureAt?]

/-- All heights are listed exactly if none of them belongs to the second list, unless none belongs to
the first one. -/
theorem listsAll {first second : List Nat} (firstAscends : first.Pairwise (· < ·))
    (secondAscends : second.Pairwise (· < ·)) (disjoint : first.Disjoint second) :
    let named := if first = [] then second else first
    let all := sortedHeights (first ++ second)
    named.take listedHeights = all.take listedHeights ∧ named.length = all.length ↔
      first = [] ∨ second = [] := by
  intro named all
  have distinct : (first ++ second).Nodup :=
    List.nodup_append'.mpr ⟨firstAscends.imp Nat.ne_of_lt, secondAscends.imp Nat.ne_of_lt, disjoint⟩
  have size : all.length = first.length + second.length := by
    rw [← List.length_append]
    exact (sortedHeightsPerm distinct).length_eq
  constructor
  · rintro ⟨_, same⟩
    by_cases none : first = []
    · exact .inl none
    · simp only [named, if_neg none] at same
      exact .inr (List.length_eq_zero_iff.mp (by omega))
  · rintro (rfl | rfl)
    · simp only [named, all, if_pos, List.nil_append, sortedHeightsOfAscending secondAscends,
        and_self]
    · have same : named = first := by
        simp only [named]
        split <;> simp_all
      simp only [same, all, List.append_nil, sortedHeightsOfAscending firstAscends, and_self]

/-- The failure of a range that is fetched height by height names the heights that could not be
fetched, or those that were refused if there are none of these. -/
theorem sequentialFailureNames (repairer : Repairer σ) {planned : PlannedRange}
    (sequential : planned.strategy = .sequential) {before after : Committer σ}
    {range : HeightRange} {listed : List Nat} {count : Nat}
    (failed : repairer.repairRange planned before =
      (.ok (.failed ⟨range, .partly listed count⟩), after)) :
    let unfetched := repairer.unfetched planned.range
    let unwritten := repairer.unwritten planned before
    let named := if unfetched = [] then unwritten else unfetched
    let all := sortedHeights (unfetched ++ unwritten)
    (repairer.delivered planned before).map Prod.fst =
        (repairer.fetcher.records planned.range.heights).map repeatable ∧
      range = planned.range ∧ named.Pairwise (· < ·) ∧ listed = named.take listedHeights ∧
      count = named.length ∧
      (repairer.fetcher.Honest planned.range →
        (listed = all.take listedHeights ∧ count = all.length ↔
          unfetched = [] ∨ unwritten = [])) := by
  intro unfetched unwritten named all
  have fetchedAscend := repairer.unfetchedAscend planned.range
  have writtenAscend : unwritten.Pairwise (· < ·) := sortedHeightsAscend _
  have ascending : named.Pairwise (· < ·) := by
    simp only [named]
    split
    · exact writtenAscend
    · exact fetchedAscend
  obtain ⟨delivered, concludes⟩ := concludesOfEnded rfl failed
  by_cases calm : repairer.fetcher.Calm planned.range.heights
  · have handed := (verdictOfSequential sequential calm).2
    rw [toWrite, handed] at delivered
    obtain ⟨acquired, partly⟩ := verdictOfUnfetched sequential calm
    have names : ⟨range, .partly listed count⟩ = RangeError.ofHeights planned.range named := by
      rcases failedOfConcludes concludes rfl with verdict | ⟨emitted, some, refused⟩
      · have lacking : unfetched ≠ [] := by
          intro none
          obtain ⟨emitted, succeeded⟩ := acquired.mp none
          rw [verdict] at succeeded
          cases succeeded
        rw [show named = unfetched from if_neg lacking]
        exact partly _ _ _ verdict
      · rw [show named = unwritten from if_pos (acquired.mpr emitted), refused]
        exact RangeError.ofHeightsCongr _ fun height => (memSortedHeights _ height).symm
    rw [RangeError.ofHeights, sortedHeightsOfAscending ascending] at names
    obtain ⟨rfl, same⟩ := RangeError.mk.inj names
    obtain ⟨rfl, rfl⟩ := RangeFailure.partly.inj same
    exact ⟨delivered, rfl, ascending, rfl, rfl, fun honest =>
      listsAll fetchedAscend writtenAscend (unfetchedDisjoint honest delivered)⟩
  · rw [verdictOfPanicked sequential calm] at concludes
    cases concludes

/-- A block of height two that cannot be stored: its view does not fit its column. -/
def misfitBlock : Record :=
  .ofBlock [2] { BlockPayload.blank with height := 2, proposedInView := 18446744073709551615 }

/-- A repairer that cannot fetch the height one, and has a block for height two that cannot be
stored. -/
def lame : Repairer Replica :=
  { blanks with
    fetcher := fun height =>
      if height = 1 then ⟨.failure (.permanent height "missing"), []⟩ else ⟨.record misfitBlock, []⟩ }

theorem lameFails : (lame.repairRange (gap .sequential) (.new (.ofTables .gapped))).1 =
    .ok (.failed ⟨Tables.gap, .partly [1] 1⟩) := by
  decide +kernel

theorem lameHeights : lame.unfetched Tables.gap = [1] ∧
    lame.unwritten (gap .sequential) (.new (.ofTables .gapped)) = [2] := by
  decide +kernel

theorem lameHonest : lame.fetcher.Honest Tables.gap := by
  have places : ∀ height ∈ Tables.gap.heights, ∀ record ∈ lame.fetcher.recordAt? height,
      record.height.toNat = height := by
    decide +kernel
  exact fun height inside record found =>
    places height ((Tables.gap.memHeights height).mpr inside) record found

/-- The height that could not be fetched is named, and this is not all that failed. -/
theorem sequentialFailureNamesFirst : ∃ after,
    lame.repairRange (gap .sequential) (.new (.ofTables .gapped)) =
        (.ok (.failed ⟨Tables.gap, .partly [1] 1⟩), after) ∧
      [1] = (lame.unfetched Tables.gap).take listedHeights ∧
      ¬([1] = (sortedHeights (lame.unfetched Tables.gap ++
            lame.unwritten (gap .sequential) (.new (.ofTables .gapped)))).take listedHeights ∧
          1 = (sortedHeights (lame.unfetched Tables.gap ++
            lame.unwritten (gap .sequential) (.new (.ofTables .gapped)))).length) := by
  have failed : lame.repairRange (gap .sequential) (.new (.ofTables .gapped)) =
      (.ok (.failed ⟨Tables.gap, .partly [1] 1⟩), _) := Prod.ext lameFails rfl
  obtain ⟨_, _, _, listed, _, exact⟩ := lame.sequentialFailureNames rfl failed
  obtain ⟨unfetched, unwritten⟩ := lameHeights
  have lacking : lame.unfetched (gap .sequential).range ≠ [] := by
    rw [show lame.unfetched (gap .sequential).range = [1] from unfetched]
    exact List.cons_ne_nil 1 []
  rw [if_neg lacking] at listed
  refine ⟨_, failed, listed, fun all => ?_⟩
  rcases (exact lameHonest).mp all with none | none
  · exact lacking none
  · rw [unwritten] at none
    cases none

/-- The failure of a range that is fetched height by height need not name every height that failed:
the second height was fetched, and its record was refused. -/
theorem sequentialFailureHides : ∃ after,
    (gap .sequential).strategy = .sequential ∧ lame.fetcher.Honest (gap .sequential).range ∧
      lame.repairRange (gap .sequential) (.new (.ofTables .gapped)) =
        (.ok (.failed ⟨Tables.gap, .partly [1] 1⟩), after) ∧
      (lame.fetcher 1).fetched = .failure (.permanent 1 "missing") ∧
      (misfitBlock, false) ∈ lame.delivered (gap .sequential) (.new (.ofTables .gapped)) ∧
      misfitBlock.height.toNat = 2 ∧ 2 ∈ (gap .sequential).range := by
  refine ⟨_, rfl, lameHonest, Prod.ext lameFails rfl, rfl, ?_, rfl, by decide, by decide⟩
  decide +kernel

end Backfill.Repairer
