/-
This file shows that the windows of a range hold the heights of the range, each once and in order.
-/

import Backfill.Height.Range

namespace Backfill.HeightRange

variable {range rest : HeightRange} {width : Nat}

/-- The last window is what is left of the range. -/
theorem splitWindowLast (last : (range.splitWindow width).2 = none) :
    (range.splitWindow width).1 = range := by
  unfold splitWindow at last ⊢
  split
  · rename_i more
    simp [more] at last
  · rfl

/-- What is left of a range is one window if it has at most as many heights. -/
theorem splitWindowNone :
    (range.splitWindow width).2 = none ↔ range.stop ≤ range.start + (max width 1 - 1) := by
  unfold splitWindow
  split
  · rename_i inside
    simp only [reduceCtorEq, false_iff]
    exact Nat.not_le_of_lt inside
  · rename_i fits
    simp only [true_iff]
    exact Nat.le_of_not_lt fits

/-- A window that is not the last one has the whole width, and the rest begins right behind it. -/
theorem splitWindowBounds (more : (range.splitWindow width).2 = some rest) :
    (range.splitWindow width).1.start = range.start ∧
      (range.splitWindow width).1.stop = range.start + (max width 1 - 1) ∧
      rest.start = range.start + (max width 1 - 1) + 1 ∧ rest.stop = range.stop := by
  unfold splitWindow at more ⊢
  split at more
  · rename_i inside
    obtain rfl := Option.some.inj more
    rw [dif_pos inside]
    exact ⟨rfl, rfl, rfl, rfl⟩
  · cases more

/-- A window that is not the last one holds the first heights, and the rest holds the others. -/
theorem splitWindowHeights (more : (range.splitWindow width).2 = some rest) :
    range.heights = (range.splitWindow width).1.heights ++ rest.heights := by
  unfold splitWindow at more ⊢
  split at more
  · rename_i inside
    obtain rfl := Option.some.inj more
    have count : range.size = (max width 1 - 1 + 1) +
        (range.stop - (range.start + (max width 1 - 1) + 1) + 1) := by
      simp only [size]
      omega
    have after : range.start + (max width 1 - 1) + 1 = range.start + (max width 1 - 1 + 1) := by
      omega
    have parts := @List.range'_append_1 range.start (max width 1 - 1 + 1)
      (range.stop - (range.start + (max width 1 - 1) + 1) + 1)
    rw [← count, ← after] at parts
    simp only [inside, dif_pos, heights, ← parts]
    simp only [size, Nat.add_sub_cancel_left]
  · cases more

/-- The windows of a range begin with the one that is split off first. -/
theorem windowsFirst (range : HeightRange) (width : Nat) :
    ∃ later, range.windows width = (range.splitWindow width).1 :: later := by
  cases split : (range.splitWindow width).2 with
  | none => exact ⟨[], windowsOfNone split⟩
  | some rest => exact ⟨rest.windows width, windowsOfSome split⟩

/-- The windows of a range hold its heights one after another. -/
theorem windowsHeights (range : HeightRange) (width : Nat) :
    (range.windows width).flatMap heights = range.heights := by
  fun_induction range.windows width with
  | case1 range last => simp [splitWindowLast last]
  | case2 range rest more _ inductionHypothesis =>
      rw [List.flatMap_cons, inductionHypothesis, splitWindowHeights more]

/-- A window of a range holds heights of the range only. -/
theorem windowSubset {window : HeightRange} (inside : window ∈ range.windows width) :
    window.heights ⊆ range.heights := by
  intro height member
  rw [← range.windowsHeights width]
  exact List.mem_flatMap.mpr ⟨window, inside, member⟩

/-- The heights of a range ascend. -/
theorem heightsAscend (range : HeightRange) : range.heights.Pairwise (· < ·) :=
  List.pairwise_lt_range'

/-- A range holds each of its heights once. -/
theorem heightsNodup (range : HeightRange) : range.heights.Nodup :=
  List.nodup_range'

/-- Some heights of a range and those of the range that are not among them are the heights of the
range. -/
theorem permOfShort {supplied : List Nat} (distinct : supplied.Nodup)
    (inside : ∀ height ∈ supplied, height ∈ range) :
    (supplied ++ range.heights.filter fun height => height ∉ supplied).Perm range.heights := by
  have apart : ∀ height ∈ supplied,
      height ∉ range.heights.filter fun height => height ∉ supplied := by
    intro height member lacking
    simp only [List.mem_filter, decide_eq_true_eq] at lacking
    exact lacking.2 member
  have all : (supplied ++ range.heights.filter fun height => height ∉ supplied).Nodup :=
    List.nodup_append.mpr ⟨distinct, range.heightsNodup.filter _,
      fun first member second lacking equal => apart first member (equal ▸ lacking)⟩
  refine (List.perm_ext_iff_of_nodup all range.heightsNodup).mpr fun height => ?_
  simp only [List.mem_append, List.mem_filter, decide_eq_true_eq]
  constructor
  · rintro (member | ⟨member, _⟩)
    · exact (range.memHeights height).mpr (inside height member)
    · exact member
  · intro member
    by_cases known : height ∈ supplied
    · exact .inl known
    · exact .inr ⟨member, known⟩

end Backfill.HeightRange
