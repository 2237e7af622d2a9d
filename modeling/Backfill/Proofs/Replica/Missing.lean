/-
This file shows that a replica detects exactly the heights that it misses.
-/

import Backfill.Proofs.Height.Separated
import Backfill.Proofs.Replica.Populated

namespace Backfill

namespace Tables

/-- A height is missing if it has no block but a height above it has one and, unless all heights
from zero on are looked for, one below it too. -/
def Missing (fromGenesis : Bool) (tables : Tables) (height : Nat) : Prop :=
  ¬tables.Populated height ∧ (∃ above : Int, height < above ∧ tables.Populated above) ∧
    (fromGenesis = true ∨ ∃ below : Int, below < height ∧ tables.Populated below)

/-- Whether no block has a negative height. -/
def Natural (tables : Tables) : Prop :=
  ∀ height, tables.Populated height → 0 ≤ height

/-- The heights of the blocks as natural numbers, ascending. -/
def naturalHeights (tables : Tables) : List Nat :=
  tables.signedHeights.map Int.toNat

variable {tables : Tables}

theorem castNaturalHeights (natural : tables.Natural) :
    tables.naturalHeights.map (fun height : Nat => (height : Int)) = tables.signedHeights := by
  rw [naturalHeights, List.map_map]
  refine (List.map_congr_left fun height member => ?_).trans (List.map_id _)
  exact Int.toNat_of_nonneg (natural height ((tables.memSignedHeights height).mp member))

theorem memNaturalHeights (natural : tables.Natural) (height : Nat) :
    height ∈ tables.naturalHeights ↔ tables.Populated height := by
  rw [← tables.memSignedHeights, ← castNaturalHeights natural, List.mem_map]
  constructor
  · intro member
    exact ⟨height, member, rfl⟩
  · rintro ⟨other, member, same⟩
    exact Int.ofNat_inj.mp same ▸ member

theorem naturalHeightsAscend (natural : tables.Natural) :
    tables.naturalHeights.Pairwise (· < ·) := by
  have ascending := tables.signedHeightsAscend
  rw [← castNaturalHeights natural, List.pairwise_map] at ascending
  exact ascending.imp Int.ofNat_lt.mp

/-- What is missing from the heights of the blocks is missing from the tables. -/
theorem missingFromIff (natural : tables.Natural) (fromGenesis : Bool) (height : Nat) :
    MissingFrom fromGenesis tables.naturalHeights height ↔ tables.Missing fromGenesis height := by
  have above : (∃ above ∈ tables.naturalHeights, height < above) ↔
      ∃ above : Int, height < above ∧ tables.Populated above := by
    constructor
    · rintro ⟨above, member, less⟩
      exact ⟨above, Int.ofNat_lt.mpr less, (memNaturalHeights natural above).mp member⟩
    · rintro ⟨above, less, populated⟩
      have cast := Int.toNat_of_nonneg (natural above populated)
      refine ⟨above.toNat, (memNaturalHeights natural _).mpr (cast.symm ▸ populated), ?_⟩
      omega
  have below : (∃ below ∈ tables.naturalHeights, below < height) ↔
      ∃ below : Int, below < height ∧ tables.Populated below := by
    constructor
    · rintro ⟨below, member, less⟩
      exact ⟨below, Int.ofNat_lt.mpr less, (memNaturalHeights natural below).mp member⟩
    · rintro ⟨below, less, populated⟩
      have cast := Int.toNat_of_nonneg (natural below populated)
      refine ⟨below.toNat, (memNaturalHeights natural _).mpr (cast.symm ▸ populated), ?_⟩
      omega
  rw [MissingFrom, Missing, memNaturalHeights natural, above, below]

theorem rangeOfNaturals {start stop : Nat} (ordered : start ≤ stop) :
    rangeOfBounds (start, stop) = .ok ⟨start, stop, ordered⟩ := by
  simp [rangeOfBounds, naturalColumn, HeightRange.ofBounds, ordered, bind, Except.bind,
    Except.mapError]

/-- The bounds between natural heights are ranges. -/
theorem rangesOfBounds (heights : List Nat) :
    (boundsBetween (heights.map fun height : Nat => (height : Int))).mapM rangeOfBounds =
      .ok (Backfill.interiorGaps heights) := by
  fun_induction Backfill.interiorGaps heights with
  | case1 lower upper rest inductionHypothesis =>
      have first : (if (lower : Int) + 1 < upper then [((lower : Int) + 1, (upper : Int) - 1)]
          else []).mapM rangeOfBounds = .ok (rangeBetween? lower upper).toList := by
        unfold rangeBetween?
        by_cases room : lower + 1 < upper
        · have cast : (lower : Int) + 1 < upper := by omega
          have start : (lower : Int) + 1 = (lower + 1 : Nat) := by omega
          have stop : (upper : Int) - 1 = (upper - 1 : Nat) := by omega
          have ordered : lower + 1 ≤ upper - 1 := by omega
          rw [if_pos cast, dif_pos room, start, stop, List.mapM_cons, rangeOfNaturals ordered]
          rfl
        · have cast : ¬(lower : Int) + 1 < upper := by omega
          simp [room, cast, pure, Except.pure]
      simp only [List.map_cons] at inductionHypothesis ⊢
      rw [boundsBetween, List.mapM_append, first, inductionHypothesis]
      rfl
  | case2 heights short =>
      cases heights with
      | nil => rfl
      | cons first others =>
          cases others with
          | nil => rfl
          | cons second rest => exact absurd rfl (short first second rest)

/-- The second tables have all heights of the first ones and others that were missing there. -/
structure Fills (fromGenesis : Bool) (before after : Tables) : Prop where
  kept : ∀ height, before.Populated height → after.Populated height
  added : ∀ height, after.Populated height → before.Populated height ∨
    ∃ missing : Nat, height = missing ∧ before.Missing fromGenesis missing

theorem naturalOfFills {fromGenesis : Bool} {before after : Tables}
    (fills : Fills fromGenesis before after) (natural : before.Natural) : after.Natural := by
  intro height populated
  rcases fills.added height populated with old | ⟨missing, rfl, _⟩
  · exact natural height old
  · exact Int.natCast_nonneg missing

/-- Once missing heights are filled, those are missing that were missing before and are not filled:
the lowest and the highest height stay where they are. -/
theorem missingOfFills {fromGenesis : Bool} {before after : Tables}
    (fills : Fills fromGenesis before after) (height : Nat) :
    after.Missing fromGenesis height ↔
      before.Missing fromGenesis height ∧ ¬after.Populated height := by
  constructor
  · rintro ⟨absent, ⟨above, beyond, aboveMem⟩, below⟩
    refine ⟨⟨mt (fills.kept height) absent, ?_, ?_⟩, absent⟩
    · rcases fills.added above aboveMem with old | ⟨missing, rfl, _, ⟨top, higher, topMem⟩, _⟩
      · exact ⟨above, beyond, old⟩
      · exact ⟨top, lt_trans beyond higher, topMem⟩
    · rcases below with whole | ⟨below, under, belowMem⟩
      · exact .inl whole
      · rcases fills.added below belowMem with old | ⟨missing, rfl, _, _, further⟩
        · exact .inr ⟨below, under, old⟩
        · refine further.imp_right fun ⟨bottom, lower, bottomMem⟩ => ?_
          exact ⟨bottom, lt_trans lower under, bottomMem⟩
  · rintro ⟨⟨_, ⟨above, beyond, aboveMem⟩, below⟩, absent⟩
    refine ⟨absent, ⟨above, beyond, fills.kept above aboveMem⟩, below.imp_right ?_⟩
    rintro ⟨below, under, belowMem⟩
    exact ⟨below, under, fills.kept below belowMem⟩

/-- Tables with blank blocks at the heights zero and three. -/
def gapped : Tables :=
  Tables.empty.writeAll false ([0, 3].map .blank)

/-- The heights that are missing there. -/
def gap : HeightRange :=
  ⟨1, 2, Nat.le_succ 1⟩

theorem populatedGapped (height : Int) : gapped.Populated height ↔ height = 0 ∨ height = 3 := by
  have rows : (gapped.blocks.toList.map fun entry => entry.2.height) = [0, 3] := by
    decide +kernel
  rw [populatedIff, rows]
  simp

theorem missingGapped (fromGenesis : Bool) (height : Nat) :
    gapped.Missing fromGenesis height ↔ height = 1 ∨ height = 2 := by
  simp only [Missing, populatedGapped]
  constructor
  · rintro ⟨absent, ⟨above, less, top⟩, _⟩
    omega
  · intro between
    exact ⟨by omega, ⟨3, by omega, .inr rfl⟩, .inr ⟨0, by omega, .inl rfl⟩⟩

end Tables

namespace Replica

variable {replica : Replica} {fromGenesis : Bool} {gaps : List HeightRange}

/-- The lowest height of a block, if it is natural. -/
theorem lowestOfNatural {tables : Tables} (natural : tables.Natural) :
    tables.lowest = .ok tables.naturalHeights.head? := by
  rw [Tables.lowest, ← Tables.castNaturalHeights natural]
  cases tables.naturalHeights with
  | nil => rfl
  | cons lowest rest => simp [naturalColumn, Functor.map, Except.map]

/-- A replica without negative heights detects what is missing from its heights. -/
theorem detectGapsOfNatural (natural : replica.visible.Natural) :
    store.detectGaps fromGenesis replica =
      .ok (gapsOfHeights fromGenesis replica.visible.naturalHeights) := by
  have separated := separatedGapsOfHeights fromGenesis (Tables.naturalHeightsAscend natural)
  have interior : store.interior replica =
      .ok (Backfill.interiorGaps replica.visible.naturalHeights) := by
    have ranges := Tables.rangesOfBounds replica.visible.naturalHeights
    rwa [Tables.castNaturalHeights natural] at ranges
  have lowest : store.lowest replica = .ok replica.visible.naturalHeights.head? :=
    lowestOfNatural natural
  unfold HeightIndex.detectGaps
  rw [lowest, interior]
  cases heights : replica.visible.naturalHeights with
  | nil => rfl
  | cons least rest =>
      rw [heights] at separated
      have orderly := gapConflictEqNone separated
      simp only [gapsOfHeights] at orderly ⊢
      simp only [List.head?_cons, bind, Except.bind, orderly]
      rfl

/-- A replica with a negative height detects nothing. -/
theorem naturalOfDetectGaps (detected : store.detectGaps fromGenesis replica = .ok gaps) :
    replica.visible.Natural := by
  intro height populated
  have member := (replica.visible.memSignedHeights height).mpr populated
  have ascending := replica.visible.signedHeightsAscend
  unfold HeightIndex.detectGaps at detected
  have asked : store.lowest replica =
    replica.visible.signedHeights.head?.mapM (naturalColumn "height") := rfl
  rw [asked] at detected
  cases heights : replica.visible.signedHeights with
  | nil =>
      rw [heights] at member
      cases member
  | cons least rest =>
      rw [heights] at member ascending detected
      by_cases positive : 0 ≤ least
      · rcases List.mem_cons.mp member with rfl | later
        · exact positive
        · exact le_trans positive (le_of_lt (List.rel_of_pairwise_cons ascending later))
      · simp [naturalColumn, positive, bind, Except.bind, Functor.map, Except.map] at detected

/-- A replica detects separated ranges that hold exactly the missing heights, provided that it has
no negative height. -/
theorem detectGapsIff :
    store.detectGaps fromGenesis replica = .ok gaps ↔
      replica.visible.Natural ∧ Separated gaps ∧
        ∀ height, Covers gaps height ↔ replica.visible.Missing fromGenesis height := by
  constructor
  · intro detected
    have natural := naturalOfDetectGaps detected
    have ascending := Tables.naturalHeightsAscend natural
    obtain rfl := Except.ok.inj (detected.symm.trans (detectGapsOfNatural natural))
    refine ⟨natural, separatedGapsOfHeights fromGenesis ascending, fun height => ?_⟩
    rw [coversGapsOfHeights fromGenesis ascending, Tables.missingFromIff natural]
  · rintro ⟨natural, separated, exact⟩
    have ascending := Tables.naturalHeightsAscend natural
    rw [detectGapsOfNatural natural, separatedUnique
      (separatedGapsOfHeights fromGenesis ascending) separated fun height => by
        rw [coversGapsOfHeights fromGenesis ascending, Tables.missingFromIff natural, exact]]

/-- Between the heights zero and three, one and two are missing. -/
theorem detectGapsGapped (fromGenesis : Bool) :
    store.detectGaps fromGenesis (.ofTables .gapped) = .ok [Tables.gap] := by
  refine detectGapsIff.mpr ⟨?_, List.pairwise_singleton _ _, fun height => ?_⟩
  · intro height populated
    rcases (Tables.populatedGapped height).mp populated with rfl | rfl
    · exact le_refl 0
    · decide
  · refine Iff.trans ?_ (Tables.missingGapped fromGenesis height).symm
    simp only [Covers, List.mem_singleton, exists_eq_left, HeightRange.memIff, Tables.gap]
    omega

/-- A replica answers whether a height that fits its column has a block. -/
theorem storeHoldsIff (replica : Replica) {height : Nat} (fits : height ≤ maxSigned) :
    ∃ present, store.holds replica height = .ok present ∧
      (present = true ↔ replica.visible.Populated height) := by
  have whole : (UInt64.ofNat height).toNat = height := by
    rw [UInt64.toNat_ofNat']
    exact Nat.mod_eq_of_lt (Nat.lt_of_le_of_lt fits (by decide))
  obtain ⟨present, answer, same⟩ :=
    @Tables.holdsIff replica.visible (UInt64.ofNat height) (by rw [whole]; exact fits)
  rw [whole] at same
  exact ⟨present, answer, same⟩

end Replica

end Backfill
