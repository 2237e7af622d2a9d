/-
This file shows that a replica finds its gaps as a list of heights does. The query over the rows of
its blocks pairs each height with the next one above it; the list pairs neighbours.
-/

import Backfill.Proofs.Replica.Reachable
import Mathlib.Data.List.Dedup

namespace Backfill

/-- The next height above a height, among those of rows in any order. -/
def nextAbove? (heights : List Int) (height : Int) : Option Int :=
  (heights.filter (height < ·)).min?

/-- The bounds of the gap above a height, if there is one below the next height. -/
def gapAbove? (heights : List Int) (height : Int) : Option (Int × Int) :=
  (nextAbove? heights height).bind fun next =>
    if height + 1 < next then some (height + 1, next - 1) else none

/-- The query for gaps over the heights of rows: the distinct heights, each with the next one, of
which those are kept that leave a gap, ordered by its start. -/
def gapRows (heights : List Int) : List (Int × Int) :=
  (heights.dedup.filterMap (gapAbove? heights)).mergeSort fun first second =>
    decide (first.1 ≤ second.1)

/-- The least height of rows is told by what lies in them. -/
theorem minOfMembers {first second : List Int} (same : ∀ height, height ∈ first ↔ height ∈ second) :
    first.min? = second.min? := by
  refine Option.ext fun least => ?_
  simp only [List.min?_eq_some_iff, same]

theorem nextAboveCongr {first second : List Int}
    (same : ∀ height, height ∈ first ↔ height ∈ second) (height : Int) :
    nextAbove? first height = nextAbove? second height :=
  minOfMembers fun other => by rw [List.mem_filter, List.mem_filter, same]

theorem minOfAscending {least : Int} {rest : List Int}
    (ascending : (least :: rest).Pairwise (· < ·)) : (least :: rest).min? = some least := by
  rw [List.min?_eq_some_iff]
  refine ⟨List.mem_cons_self, fun other member => ?_⟩
  rcases List.mem_cons.mp member with rfl | later
  · exact le_refl _
  · exact le_of_lt (List.rel_of_pairwise_cons ascending later)

/-- A height below all others has the least of them above it. -/
theorem nextAboveFirst {height : Int} {rest : List Int}
    (ascending : (height :: rest).Pairwise (· < ·)) :
    nextAbove? (height :: rest) height = rest.head? := by
  have others : rest.filter (height < ·) = rest :=
    List.filter_eq_self.mpr fun other member =>
      decide_eq_true (List.rel_of_pairwise_cons ascending member)
  rw [nextAbove?, List.filter_cons_of_neg (by simp), others]
  cases rest with
  | nil => rfl
  | cons next later => exact minOfAscending ascending.of_cons

/-- A height does not count for those above it. -/
theorem nextAboveLater {lower height : Int} {rest : List Int} (above : lower < height) :
    nextAbove? (lower :: rest) height = nextAbove? rest height := by
  rw [nextAbove?, List.filter_cons_of_neg (by simpa using le_of_lt above)]
  rfl

/-- Among ascending heights the next height is the neighbour. -/
theorem gapsAbove {heights : List Int} (ascending : heights.Pairwise (· < ·)) :
    heights.filterMap (gapAbove? heights) = Tables.boundsBetween heights := by
  fun_induction Tables.boundsBetween heights with
  | case1 lower upper rest inductionHypothesis =>
      have later : (upper :: rest).filterMap (gapAbove? (lower :: upper :: rest)) =
          (upper :: rest).filterMap (gapAbove? (upper :: rest)) := by
        refine List.filterMap_congr fun height member => ?_
        rw [gapAbove?, nextAboveLater (List.rel_of_pairwise_cons ascending member), gapAbove?]
      rw [List.filterMap_cons, later, inductionHypothesis ascending.of_cons, gapAbove?,
        nextAboveFirst ascending]
      by_cases room : lower + 1 < upper <;> simp [room]
  | case2 heights short =>
      cases heights with
      | nil => rfl
      | cons first others =>
          cases others with
          | nil => simp [gapAbove?, nextAboveFirst ascending]
          | cons second rest => exact absurd rfl (short first second rest)

/-- The gaps between ascending heights start one above the other. -/
theorem boundsAscend {heights : List Int} (ascending : heights.Pairwise (· < ·)) :
    (Tables.boundsBetween heights).Pairwise fun first second => first.1 < second.1 := by
  rw [← gapsAbove ascending, List.pairwise_filterMap]
  refine ascending.imp fun {lower upper} less first firstGap second secondGap => ?_
  have start {height : Int} {gap : Int × Int} (found : gapAbove? heights height = some gap) :
      gap.1 = height + 1 := by
    obtain ⟨next, _, bounds⟩ := Option.bind_eq_some_iff.mp found
    split at bounds
    · obtain rfl := Option.some.inj bounds
      rfl
    · cases bounds
  rw [start firstGap, start secondGap]
  omega

/-- The query over rows in any order gives the gaps between the heights of the rows. -/
theorem gapRowsEq {rows heights : List Int} (ascending : heights.Pairwise (· < ·))
    (same : ∀ height, height ∈ rows ↔ height ∈ heights) :
    gapRows rows = Tables.boundsBetween heights := by
  have distinct : rows.dedup.Perm heights :=
    (List.perm_ext_iff_of_nodup rows.nodup_dedup (ascending.imp ne_of_lt)).mpr fun height => by
      rw [List.mem_dedup, same]
  have gaps : gapAbove? rows = gapAbove? heights := by
    funext height
    rw [gapAbove?, nextAboveCongr same, gapAbove?]
  have perm : (gapRows rows).Perm (Tables.boundsBetween heights) := by
    rw [← gapsAbove ascending, gapRows, gaps]
    exact (List.mergeSort_perm _ _).trans (distinct.filterMap _)
  have sorted : (gapRows rows).Pairwise fun first second => first.1 ≤ second.1 := by
    have sorting := @List.pairwise_mergeSort (Int × Int)
      (fun first second => decide (first.1 ≤ second.1)) (by simp only [decide_eq_true_eq]; omega)
      (by simp only [Bool.or_eq_true, decide_eq_true_eq]; omega)
      (rows.dedup.filterMap (gapAbove? rows))
    simpa [gapRows] using sorting
  have starts := boundsAscend ascending
  refine perm.eq_of_pairwise ?_ sorted (starts.imp le_of_lt)
  intro first second firstMem secondMem lower upper
  exact List.inj_on_of_nodup_map ((List.pairwise_map.mpr starts).imp ne_of_lt)
    (perm.mem_iff.mp firstMem) secondMem (le_antisymm lower upper)

namespace Tables

/-- The heights of the rows of blocks, in the order of the rows. -/
def rowHeights (tables : Tables) : List Int :=
  tables.blocks.toList.map fun entry => entry.2.height

theorem memRowHeights (tables : Tables) (height : Int) :
    height ∈ tables.rowHeights ↔ height ∈ tables.signedHeights := by
  rw [memSignedHeights, populatedIff, rowHeights]

/-- The ranges between heights with a block are the rows of the query. -/
theorem interiorGapsEq (tables : Tables) :
    tables.interiorGaps = (gapRows tables.rowHeights).mapM rangeOfBounds := by
  rw [gapRowsEq tables.signedHeightsAscend tables.memRowHeights, interiorGaps]

/-- The lowest height is the least one of the rows. -/
theorem lowestEq (tables : Tables) :
    tables.lowest = tables.rowHeights.min?.mapM (naturalColumn "height") := by
  have least : tables.rowHeights.min? = tables.signedHeights.head? := by
    rw [minOfMembers tables.memRowHeights]
    have ascending := tables.signedHeightsAscend
    cases heights : tables.signedHeights with
    | nil => rfl
    | cons first rest =>
        rw [heights] at ascending
        exact minOfAscending ascending
  rw [least, lowest]

/-- Heights that are natural can all be read. -/
theorem populatedOfNatural {tables : Tables} (natural : tables.Natural) :
    tables.populatedHeights = .ok tables.naturalHeights := by
  rw [populatedHeights, ← castNaturalHeights natural]
  induction tables.naturalHeights with
  | nil => rfl
  | cons height rest inductionHypothesis =>
      rw [List.map_cons, List.mapM_cons, inductionHypothesis]
      simp [naturalColumn, bind, Except.bind, pure, Except.pure]

end Tables

namespace Replica

/-- Whatever calls were made to a replica that was empty at first, it detects the gaps that the list
of its heights has. -/
theorem detectsGapsOfHeights (calls : List SinkCall) (fromGenesis : Bool) :
    let replica := store.makeAll calls .empty
    let tables := replica.visible
    ∃ heights, tables.populatedHeights = .ok heights ∧
      store.detectGaps fromGenesis replica = .ok (gapsOfHeights fromGenesis heights) ∧
      store.interior replica = (gapRows tables.rowHeights).mapM Tables.rangeOfBounds ∧
      store.lowest replica = tables.rowHeights.min?.mapM (naturalColumn "height") := by
  intro replica tables
  have nothing (height : Int) : ¬Tables.empty.Populated height := by
    rintro ⟨hash, row, found, _⟩
    simp [Tables.empty] at found
  have used : replica.Used :=
    ⟨.empty, calls, fun height populated => absurd populated (nothing height),
      fun height populated => absurd populated (nothing height), rfl⟩
  have natural := (visibleOfUsed used).1
  exact ⟨_, Tables.populatedOfNatural natural, detectGapsOfNatural natural,
    Tables.interiorGapsEq tables, Tables.lowestEq tables⟩

end Replica

end Backfill
