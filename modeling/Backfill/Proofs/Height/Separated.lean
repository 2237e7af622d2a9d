/-
This file shows that the ranges missing from a list of heights are separated, that they hold exactly
the heights that the list lacks, and that no other separated ranges hold the same heights. A list of
heights collapses into separated ranges as well.
-/

import Backfill.Proofs.Height.Sorted
import Backfill.Proofs.Height.Windows

namespace Backfill

/-- Ranges are separated if they ascend with a height between each of them and the next. -/
def Separated (ranges : List HeightRange) : Prop :=
  ranges.Pairwise fun first second => first.stop + 1 < second.start

/-- Whether one of the ranges holds a height. -/
def Covers (ranges : List HeightRange) (height : Nat) : Prop :=
  ∃ range ∈ ranges, height ∈ range

theorem coversNil (height : Nat) : ¬Covers [] height := by
  simp [Covers]

theorem coversCons (range : HeightRange) (ranges : List HeightRange) (height : Nat) :
    Covers (range :: ranges) height ↔ height ∈ range ∨ Covers ranges height := by
  simp [Covers]

theorem coversAppend (first second : List HeightRange) (height : Nat) :
    Covers (first ++ second) height ↔ Covers first height ∨ Covers second height := by
  simp [Covers, or_and_right, exists_or]

theorem memFlatHeights (ranges : List HeightRange) (height : Nat) :
    height ∈ ranges.flatMap HeightRange.heights ↔ Covers ranges height := by
  simp [Covers, List.mem_flatMap, HeightRange.memHeights]

/-- The heights of ranges that follow each other ascend. -/
theorem heightsOfFollowing {ranges : List HeightRange}
    (following : ranges.Pairwise fun first second => first.stop < second.start) :
    (ranges.flatMap HeightRange.heights).Pairwise (· < ·) := by
  rw [List.pairwise_flatMap]
  refine ⟨fun range _ => range.heightsAscend, following.imp ?_⟩
  intro first second apart lower lowerMem upper upperMem
  obtain ⟨_, leStop⟩ := (first.memHeights lower).mp lowerMem
  obtain ⟨startLe, _⟩ := (second.memHeights upper).mp upperMem
  omega

/-- The heights of separated ranges ascend. -/
theorem heightsOfSeparated {ranges : List HeightRange} (separated : Separated ranges) :
    (ranges.flatMap HeightRange.heights).Pairwise (· < ·) :=
  heightsOfFollowing (separated.imp Nat.lt_of_succ_lt)

theorem HeightRange.eqOfEnds {first second : HeightRange} (start : first.start = second.start)
    (stop : first.stop = second.stop) : first = second := by
  obtain ⟨lower, upper, ordered⟩ := first
  subst start stop
  rfl

theorem HeightRange.startMem (range : HeightRange) : range.start ∈ range :=
  ⟨Nat.le_refl _, range.ordered⟩

theorem HeightRange.stopMem (range : HeightRange) : range.stop ∈ range :=
  ⟨range.ordered, Nat.le_refl _⟩

/-- Heights of the ranges that come after a range lie above it, with a height between. -/
theorem aboveOfSeparated {range : HeightRange} {ranges : List HeightRange} {height : Nat}
    (separated : Separated (range :: ranges)) (covered : Covers ranges height) :
    range.stop + 1 < height := by
  obtain ⟨later, member, inside⟩ := covered
  have apart : range.stop + 1 < later.start := List.rel_of_pairwise_cons separated member
  exact Nat.lt_of_lt_of_le apart inside.1

/-- The first of separated ranges starts at the lowest of their heights. -/
theorem startLeOfCovers {range : HeightRange} {ranges : List HeightRange} {height : Nat}
    (separated : Separated (range :: ranges)) (covered : Covers (range :: ranges) height) :
    range.start ≤ height := by
  rcases (coversCons range ranges height).mp covered with inside | later
  · exact inside.1
  · have above := aboveOfSeparated separated later
    have ordered := range.ordered
    omega

/-- The first of separated ranges ends where the height after it is missing. -/
theorem stopLeOfCovers {first second : HeightRange} {rest others : List HeightRange}
    (separated : Separated (first :: rest)) (start : first.start = second.start)
    (same : ∀ height, Covers (first :: rest) height ↔ Covers (second :: others) height) :
    second.stop ≤ first.stop := by
  refine Nat.le_of_not_lt fun beyond => ?_
  have ordered := first.ordered
  have inside : first.stop + 1 ∈ second := ⟨by omega, by omega⟩
  have covered := (same (first.stop + 1)).mpr ((coversCons _ _ _).mpr (.inl inside))
  rcases (coversCons _ _ _).mp covered with ⟨_, within⟩ | later
  · omega
  · have above := aboveOfSeparated separated later
    omega

/-- Separated ranges that hold the same heights start at the same one. -/
theorem startEqOfCovers {first second : HeightRange} {rest others : List HeightRange}
    (separatedFirst : Separated (first :: rest)) (separatedSecond : Separated (second :: others))
    (same : ∀ height, Covers (first :: rest) height ↔ Covers (second :: others) height) :
    first.start = second.start := by
  have here := (same first.start).mp ((coversCons _ _ _).mpr (.inl first.startMem))
  have there := (same second.start).mpr ((coversCons _ _ _).mpr (.inl second.startMem))
  exact Nat.le_antisymm (startLeOfCovers separatedFirst there) (startLeOfCovers separatedSecond here)

/-- Heights behind the first of separated ranges are behind the same range elsewhere. -/
theorem coversRest {range : HeightRange} {rest others : List HeightRange} {height : Nat}
    (separated : Separated (range :: rest))
    (whole : Covers (range :: rest) height → Covers (range :: others) height)
    (covered : Covers rest height) : Covers others height := by
  have above := aboveOfSeparated separated covered
  have held := whole ((coversCons _ _ _).mpr (.inr covered))
  refine ((coversCons _ _ _).mp held).resolve_left fun inside => ?_
  have within := inside.2
  omega

/-- Separated ranges are determined by the heights that they hold. -/
theorem separatedUnique {first second : List HeightRange} (separatedFirst : Separated first)
    (separatedSecond : Separated second)
    (same : ∀ height, Covers first height ↔ Covers second height) : first = second := by
  have some (range : HeightRange) (rest : List HeightRange) : Covers (range :: rest) range.start :=
    (coversCons _ _ _).mpr (.inl range.startMem)
  induction first generalizing second with
  | nil =>
      cases second with
      | nil => rfl
      | cons range rest => exact absurd ((same _).mpr (some range rest)) (coversNil _)
  | cons range rest inductionHypothesis =>
      cases second with
      | nil => exact absurd ((same _).mp (some range rest)) (coversNil _)
      | cons other others =>
          have start := startEqOfCovers separatedFirst separatedSecond same
          have stop : range.stop = other.stop :=
            Nat.le_antisymm (stopLeOfCovers separatedSecond start.symm fun height =>
              (same height).symm) (stopLeOfCovers separatedFirst start same)
          obtain rfl : range = other := HeightRange.eqOfEnds start stop
          rw [inductionHypothesis separatedFirst.of_cons separatedSecond.of_cons]
          exact fun height => ⟨coversRest separatedFirst (same height).mp,
            coversRest separatedSecond (same height).mpr⟩

theorem gapConflictEqNone {ranges : List HeightRange} (separated : Separated ranges) :
    gapConflict? ranges = none := by
  fun_induction gapConflict? ranges with
  | case1 first second rest touching =>
      have apart : first.stop + 1 < second.start :=
        List.rel_of_pairwise_cons separated List.mem_cons_self
      omega
  | case2 first second rest _ inductionHypothesis => exact inductionHypothesis separated.of_cons
  | case3 => rfl

/-- The first of ascending heights is the lowest one. -/
theorem headLe {lowest other : Nat} {rest : List Nat}
    (ascending : (lowest :: rest).Pairwise (· < ·)) (member : other ∈ lowest :: rest) :
    lowest ≤ other := by
  rcases List.mem_cons.mp member with rfl | later
  · exact Nat.le_refl _
  · exact Nat.le_of_lt (List.rel_of_pairwise_cons ascending later)

theorem memRangeBelow {height below : Nat} :
    Covers (rangeBelow? height).toList below ↔ below < height := by
  unfold rangeBelow?
  split
  · simp only [Option.toList_some, Covers, List.mem_singleton, exists_eq_left,
      HeightRange.memIff]
    omega
  · simp only [Option.toList_none, coversNil, false_iff]
    omega

theorem memRangeBetween {lower upper between : Nat} :
    Covers (rangeBetween? lower upper).toList between ↔ lower < between ∧ between < upper := by
  unfold rangeBetween?
  split
  · simp only [Option.toList_some, Covers, List.mem_singleton, exists_eq_left,
      HeightRange.memIff]
    omega
  · simp only [Option.toList_none, coversNil, false_iff]
    omega

/-- The ranges between neighbours hold the heights that are missing between the lowest height and
the highest one. -/
theorem coversInteriorGaps {heights : List Nat} (ascending : heights.Pairwise (· < ·))
    (height : Nat) :
    Covers (interiorGaps heights) height ↔
      height ∉ heights ∧ (∃ below ∈ heights, below < height) ∧
        ∃ above ∈ heights, height < above := by
  fun_induction interiorGaps heights with
  | case1 lower upper rest inductionHypothesis =>
      have next : lower < upper := List.rel_of_pairwise_cons ascending List.mem_cons_self
      rw [coversAppend, memRangeBetween, inductionHypothesis ascending.of_cons]
      constructor
      · rintro (⟨beyond, under⟩ |
          ⟨absent, ⟨below, belowMem, belowLess⟩, ⟨above, aboveMem, aboveLess⟩⟩)
        · refine ⟨fun member => ?_, ⟨lower, List.mem_cons_self, beyond⟩,
            ⟨upper, List.mem_cons_of_mem _ List.mem_cons_self, under⟩⟩
          rcases List.mem_cons.mp member with rfl | later
          · exact Nat.lt_irrefl _ beyond
          · have bound := headLe ascending.of_cons later
            omega
        · have bound := headLe ascending.of_cons belowMem
          refine ⟨fun member => ?_, ⟨below, List.mem_cons_of_mem _ belowMem, belowLess⟩,
            ⟨above, List.mem_cons_of_mem _ aboveMem, aboveLess⟩⟩
          rcases List.mem_cons.mp member with rfl | later
          · omega
          · exact absent later
      · rintro ⟨absent, ⟨below, belowMem, belowLess⟩, ⟨above, aboveMem, aboveLess⟩⟩
        have different : height ≠ upper := fun equal =>
          absent (equal ▸ List.mem_cons_of_mem _ List.mem_cons_self)
        have overLower : lower < height := by
          rcases List.mem_cons.mp belowMem with rfl | later
          · exact belowLess
          · have bound := headLe ascending.of_cons later
            omega
        rcases Nat.lt_or_ge height upper with under | beyond
        · exact .inl ⟨overLower, under⟩
        · refine .inr ⟨fun member => absent (List.mem_cons_of_mem _ member),
            ⟨upper, List.mem_cons_self, by omega⟩, above, ?_, aboveLess⟩
          rcases List.mem_cons.mp aboveMem with rfl | later
          · omega
          · exact later
  | case2 heights short =>
      match heights, short with
      | [], _ => simp [coversNil]
      | [only], _ =>
          simp only [coversNil, List.mem_singleton, exists_eq_left, false_iff]
          omega
      | first :: second :: rest, short => exact absurd rfl (short first second rest)

/-- The ranges between neighbours are separated, and lie above the lowest height. -/
theorem separatedInteriorGaps {heights : List Nat} (ascending : heights.Pairwise (· < ·)) :
    Separated (interiorGaps heights) := by
  fun_induction interiorGaps heights with
  | case1 lower upper rest inductionHypothesis =>
      refine List.pairwise_append.mpr ⟨?_, inductionHypothesis ascending.of_cons, ?_⟩
      · unfold rangeBetween?
        split
        · exact List.pairwise_singleton _ _
        · exact List.Pairwise.nil
      · intro first firstMem second secondMem
        have under : first.stop < upper :=
          (memRangeBetween.mp ⟨first, firstMem, first.stopMem⟩).2
        have covered : Covers (interiorGaps (upper :: rest)) second.start :=
          ⟨second, secondMem, second.startMem⟩
        obtain ⟨_, ⟨below, belowMem, belowLess⟩, _⟩ :=
          (coversInteriorGaps ascending.of_cons _).mp covered
        have bound := headLe ascending.of_cons belowMem
        omega
  | case2 => exact List.Pairwise.nil

/-- A height is missing from a list if the list lacks it but has a height above it and, unless all
heights from zero on are looked for, one below it. -/
def MissingFrom (fromGenesis : Bool) (heights : List Nat) (height : Nat) : Prop :=
  height ∉ heights ∧ (∃ above ∈ heights, height < above) ∧
    (fromGenesis = true ∨ ∃ below ∈ heights, below < height)

/-- The missing ranges hold exactly the missing heights. -/
theorem coversGapsOfHeights (fromGenesis : Bool) {heights : List Nat}
    (ascending : heights.Pairwise (· < ·)) (height : Nat) :
    Covers (gapsOfHeights fromGenesis heights) height ↔ MissingFrom fromGenesis heights height := by
  cases heights with
  | nil => simp [gapsOfHeights, coversNil, MissingFrom]
  | cons lowest rest =>
      have leading : Covers (if fromGenesis then (rangeBelow? lowest).toList else []) height ↔
          fromGenesis = true ∧ height < lowest := by
        cases fromGenesis with
        | true => simp [memRangeBelow]
        | false => simp [coversNil]
      rw [gapsOfHeights, coversAppend, leading, coversInteriorGaps ascending, MissingFrom]
      constructor
      · rintro (⟨whole, under⟩ | ⟨absent, below, above⟩)
        · refine ⟨fun member => ?_, ⟨lowest, List.mem_cons_self, under⟩, .inl whole⟩
          have bound := headLe ascending member
          omega
        · exact ⟨absent, above, .inr below⟩
      · rintro ⟨absent, above, whole | below⟩
        · rcases Nat.lt_or_ge height lowest with under | beyond
          · exact .inl ⟨whole, under⟩
          · refine .inr ⟨absent, ⟨lowest, List.mem_cons_self, ?_⟩, above⟩
            have different : height ≠ lowest := fun equal =>
              absent (equal ▸ List.mem_cons_self)
            omega
        · exact .inr ⟨absent, below, above⟩

/-- The missing ranges are separated. -/
theorem separatedGapsOfHeights (fromGenesis : Bool) {heights : List Nat}
    (ascending : heights.Pairwise (· < ·)) : Separated (gapsOfHeights fromGenesis heights) := by
  cases heights with
  | nil => exact List.Pairwise.nil
  | cons lowest rest =>
      refine List.pairwise_append.mpr ⟨?_, separatedInteriorGaps ascending, ?_⟩
      · unfold rangeBelow?
        split
        · split
          · exact List.pairwise_singleton _ _
          · exact List.Pairwise.nil
        · exact List.Pairwise.nil
      · intro first firstMem second secondMem
        have under : first.stop < lowest := by
          cases fromGenesis with
          | true => exact memRangeBelow.mp ⟨first, firstMem, first.stopMem⟩
          | false => cases firstMem
        have covered : Covers (interiorGaps (lowest :: rest)) second.start :=
          ⟨second, secondMem, second.startMem⟩
        obtain ⟨_, ⟨below, belowMem, belowLess⟩, _⟩ :=
          (coversInteriorGaps ascending _).mp covered
        have bound := headLe ascending belowMem
        omega

/-- A height above all ranges, of which the last is held first, is added to them without one
touching another. -/
theorem separatedAppendHeight {ranges : List HeightRange} {height : Nat}
    (separated : Separated ranges.reverse) (below : ∀ range ∈ ranges, range.stop < height) :
    Separated (appendHeight ranges height).reverse ∧
      ∀ range ∈ appendHeight ranges height, range.stop ≤ height := by
  cases ranges with
  | nil => simp [appendHeight, Separated, HeightRange.single]
  | cons last before =>
      have under : last.stop < height := below last List.mem_cons_self
      have others : ∀ range ∈ before, range.stop ≤ height := fun range member =>
        Nat.le_of_lt (below range (List.mem_cons_of_mem _ member))
      rw [List.reverse_cons] at separated
      obtain ⟨apart, _, lower⟩ := List.pairwise_append.mp separated
      have lowerLast : ∀ range ∈ before.reverse, range.stop + 1 < last.start := fun range member =>
        lower range member last List.mem_cons_self
      unfold appendHeight
      dsimp only
      split
      · -- The height extends the last range.
        refine ⟨?_, List.forall_mem_cons.mpr ⟨Nat.le_refl _, others⟩⟩
        rw [List.reverse_cons]
        refine List.pairwise_append.mpr ⟨apart, List.pairwise_singleton _ _, ?_⟩
        intro range member other only
        obtain rfl := List.mem_singleton.mp only
        exact lowerLast range member
      · rename_i distant
        refine ⟨?_, List.forall_mem_cons.mpr ⟨Nat.le_refl _,
          List.forall_mem_cons.mpr ⟨Nat.le_of_lt under, others⟩⟩⟩
        rw [List.reverse_cons, List.reverse_cons]
        refine List.pairwise_append.mpr ⟨separated, List.pairwise_singleton _ _, ?_⟩
        intro range member other only
        obtain rfl := List.mem_singleton.mp only
        show range.stop + 1 < height
        have ordered := last.ordered
        rcases List.mem_append.mp member with early | latest
        · have := lowerLast range early
          omega
        · obtain rfl := List.mem_singleton.mp latest
          omega

/-- A list of heights collapses into separated ranges. -/
theorem separatedCollapse (heights : List Nat) : Separated (collapse heights) := by
  have build (listed : List Nat) (ranges : List HeightRange)
      (ascending : listed.Pairwise (· < ·))
      (below : ∀ range ∈ ranges, ∀ height ∈ listed, range.stop < height)
      (separated : Separated ranges.reverse) :
      Separated (listed.foldl appendHeight ranges).reverse := by
    induction listed generalizing ranges with
    | nil => exact separated
    | cons height rest inductionHypothesis =>
        obtain ⟨least, ascendingRest⟩ := List.pairwise_cons.mp ascending
        obtain ⟨longer, stops⟩ := separatedAppendHeight separated fun range member =>
          below range member height List.mem_cons_self
        rw [List.foldl_cons]
        refine inductionHypothesis _ ascendingRest (fun range member next later => ?_) longer
        exact Nat.lt_of_le_of_lt (stops range member) (least next later)
  exact build _ [] (sortedHeightsAscend heights) (by simp) List.Pairwise.nil

end Backfill
