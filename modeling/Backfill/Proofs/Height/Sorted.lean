/-
This file shows that lists of heights are sorted and collapsed into ranges without loss: the ranges
hold the heights of the list in ascending order, each once.
-/

import Backfill.Height.Gaps
import Mathlib.Data.Int.Basic
import Mathlib.Data.List.Sort

namespace Backfill

section Sorting

variable {α : Type} [DecidableEq α]

/-- Values are kept unless they repeat their neighbour. -/
theorem memDropRepeats (values : List α) (value : α) :
    value ∈ dropRepeats values ↔ value ∈ values := by
  fun_induction dropRepeats values with
  | case1 second rest inductionHypothesis => simp [inductionHypothesis]
  | case2 first second rest _ inductionHypothesis =>
      rw [List.mem_cons, List.mem_cons, inductionHypothesis]
  | case3 => rfl

variable [PartialOrder α]

/-- An ascending list without repeats ascends strictly. -/
theorem dropRepeatsAscend {values : List α} (sorted : values.Pairwise (· ≤ ·)) :
    (dropRepeats values).Pairwise (· < ·) := by
  fun_induction dropRepeats values with
  | case1 second rest inductionHypothesis => exact inductionHypothesis sorted.of_cons
  | case2 first second rest different inductionHypothesis =>
      refine List.pairwise_cons.mpr ⟨fun value member => ?_, inductionHypothesis sorted.of_cons⟩
      rw [memDropRepeats] at member
      have least := List.rel_of_pairwise_cons sorted List.mem_cons_self
      have above : second ≤ value := by
        rcases List.mem_cons.mp member with rfl | later
        · exact le_refl _
        · exact List.rel_of_pairwise_cons sorted.of_cons later
      exact lt_of_lt_of_le (lt_of_le_of_ne least different) above
  | case3 values short =>
      match values, short with
      | [], _ => exact List.Pairwise.nil
      | [value], _ => exact List.pairwise_singleton _ _
      | first :: second :: rest, short => exact absurd rfl (short first second rest)

/-- A list that ascends strictly has no repeats. -/
theorem dropRepeatsOfAscending {values : List α} (ascending : values.Pairwise (· < ·)) :
    dropRepeats values = values := by
  fun_induction dropRepeats values with
  | case1 second rest =>
      exact absurd (List.rel_of_pairwise_cons ascending List.mem_cons_self) (lt_irrefl _)
  | case2 first second rest _ inductionHypothesis =>
      rw [inductionHypothesis ascending.of_cons]
  | case3 => rfl

end Sorting

theorem mergeSortAscend (heights : List Nat) :
    (heights.mergeSort (· ≤ ·)).Pairwise (· ≤ ·) := by
  have sorted := @List.pairwise_mergeSort Nat (fun first second => decide (first ≤ second))
    (by simp only [decide_eq_true_eq]; omega)
    (by simp only [Bool.or_eq_true, decide_eq_true_eq]; omega) heights
  simpa using sorted

/-- Sorted heights ascend strictly. -/
theorem sortedHeightsAscend (heights : List Nat) : (sortedHeights heights).Pairwise (· < ·) :=
  dropRepeatsAscend (mergeSortAscend heights)

/-- Sorting neither adds a height nor loses one. -/
theorem memSortedHeights (heights : List Nat) (height : Nat) :
    height ∈ sortedHeights heights ↔ height ∈ heights := by
  rw [sortedHeights, memDropRepeats, List.mem_mergeSort]

/-- Of ascending heights the repetitions are dropped. -/
theorem sortedHeightsOfSorted {heights : List Nat} (ascending : heights.Pairwise (· ≤ ·)) :
    sortedHeights heights = dropRepeats heights := by
  rw [sortedHeights, List.mergeSort_of_pairwise]
  exact ascending.imp decide_eq_true

/-- Heights that ascend strictly are sorted. -/
theorem sortedHeightsOfAscending {heights : List Nat} (ascending : heights.Pairwise (· < ·)) :
    sortedHeights heights = heights := by
  rw [sortedHeightsOfSorted (ascending.imp Nat.le_of_lt), dropRepeatsOfAscending ascending]

/-- Lists that hold the same heights are sorted alike. -/
theorem sortedHeightsCongr {first second : List Nat}
    (same : ∀ height, height ∈ first ↔ height ∈ second) :
    sortedHeights first = sortedHeights second := by
  apply List.Pairwise.eq_of_mem_iff (sortedHeightsAscend first) (sortedHeightsAscend second)
  intro height
  rw [memSortedHeights, memSortedHeights, same]

/-- Heights that do not repeat are all kept. -/
theorem sortedHeightsPerm {heights : List Nat} (distinct : heights.Nodup) :
    (sortedHeights heights).Perm heights :=
  (List.perm_ext_iff_of_nodup ((sortedHeightsAscend heights).imp Nat.ne_of_lt) distinct).mpr
    (memSortedHeights heights)

theorem sortedHeightsEqNil (heights : List Nat) : sortedHeights heights = [] ↔ heights = [] := by
  constructor
  · intro none
    refine List.eq_nil_iff_forall_not_mem.mpr fun height member => ?_
    have kept := (memSortedHeights heights height).mpr member
    simp [none] at kept
  · rintro rfl
    simp [sortedHeights, dropRepeats]

/-- A height that follows a range directly extends it by itself. -/
theorem HeightRange.heightsExtend (range longer : HeightRange) (start : longer.start = range.start)
    (stop : longer.stop = range.stop + 1) : longer.heights = range.heights ++ [longer.stop] := by
  have ordered := range.ordered
  have size : longer.size = range.size + 1 := by
    simp only [HeightRange.size, start, stop]
    omega
  have last : range.start + range.size = longer.stop := by
    simp only [HeightRange.size, stop]
    omega
  rw [HeightRange.heights, size, start, List.range'_1_concat, last]
  rfl

theorem appendHeightHeights (ranges : List HeightRange) (height : Nat) :
    (appendHeight ranges height).reverse.flatMap HeightRange.heights =
      ranges.reverse.flatMap HeightRange.heights ++ [height] := by
  unfold appendHeight
  split
  · rename_i last before
    split
    · rename_i next
      simp only [List.reverse_cons, List.flatMap_append, List.flatMap_singleton,
        List.append_assoc]
      rw [last.heightsExtend ⟨last.start, height, by have := last.ordered; omega⟩ rfl next.symm]
    · simp [HeightRange.heights, HeightRange.single, HeightRange.size]
  · simp [HeightRange.heights, HeightRange.single, HeightRange.size]

/-- The ranges of a list hold its heights in ascending order, each once. -/
theorem collapseHeights (heights : List Nat) :
    (collapse heights).flatMap HeightRange.heights = sortedHeights heights := by
  have build (listed : List Nat) (ranges : List HeightRange) :
      (listed.foldl appendHeight ranges).reverse.flatMap HeightRange.heights =
        ranges.reverse.flatMap HeightRange.heights ++ listed := by
    induction listed generalizing ranges with
    | nil => simp
    | cons height rest inductionHypothesis =>
        rw [List.foldl_cons, inductionHypothesis, appendHeightHeights, List.append_assoc]
        rfl
  exact build (sortedHeights heights) []

end Backfill
