/-
This file shows that the ranges missing from a list of heights are the complement of the ranges that
the list collapses into, and that both come out the same when all heights are words.
-/

import Backfill.Proofs.Height.Separated
import Backfill.Proofs.Word
import Mathlib.Data.List.Forall2

namespace Backfill

section Repeats

theorem dropRepeatsCons {α : Type} [DecidableEq α] (value : α) (rest : List α) :
    ∃ others, dropRepeats (value :: rest) = value :: others := by
  induction rest with
  | nil => exact ⟨[], rfl⟩
  | cons second rest inductionHypothesis =>
      rw [dropRepeats]
      split
      · rename_i same
        exact same ▸ inductionHypothesis
      · exact ⟨_, rfl⟩

theorem dropRepeatsMap {α β : Type} [DecidableEq α] [DecidableEq β] {function : α → β}
    (injective : function.Injective) (values : List α) :
    dropRepeats (values.map function) = (dropRepeats values).map function := by
  fun_induction dropRepeats values with
  | case1 second rest inductionHypothesis =>
      rw [← inductionHypothesis, List.map_cons, List.map_cons, dropRepeats, if_pos rfl]
  | case2 first second rest different inductionHypothesis =>
      rw [List.map_cons, List.map_cons, dropRepeats, if_neg (injective.ne different),
        ← List.map_cons, inductionHypothesis, List.map_cons]
  | case3 values short =>
      cases values with
      | nil => rfl
      | cons first rest =>
          cases rest with
          | nil => rfl
          | cons second rest => exact absurd rfl (short first second rest)

/-- Nothing is missing between a height and its repetition. -/
theorem interiorGapsDropRepeats (heights : List Nat) :
    interiorGaps (dropRepeats heights) = interiorGaps heights := by
  fun_induction dropRepeats heights with
  | case1 second rest inductionHypothesis =>
      rw [inductionHypothesis, interiorGaps, rangeBetween?, dif_neg (by omega)]
      rfl
  | case2 first second rest different inductionHypothesis =>
      obtain ⟨others, kept⟩ := dropRepeatsCons second rest
      rw [kept] at inductionHypothesis ⊢
      rw [interiorGaps, inductionHypothesis, interiorGaps]
  | case3 => rfl

theorem gapsDropRepeats (fromGenesis : Bool) (heights : List Nat) :
    gapsOfHeights fromGenesis (dropRepeats heights) = gapsOfHeights fromGenesis heights := by
  cases heights with
  | nil => rfl
  | cons lowest rest =>
      obtain ⟨others, kept⟩ := dropRepeatsCons lowest rest
      have interior := interiorGapsDropRepeats (lowest :: rest)
      rw [kept] at interior ⊢
      rw [gapsOfHeights, gapsOfHeights, interior]

end Repeats

section Tiling

variable {first second : List HeightRange}

/-- Two ranges lie apart if one of them ends before the other one starts. -/
def HeightRange.Apart (first second : HeightRange) : Prop :=
  first.stop < second.start ∨ second.stop < first.start

theorem HeightRange.apartOfDisjoint {first second : HeightRange}
    (disjoint : ∀ height ∈ first, height ∉ second) : first.Apart second := by
  have firstOrdered := first.ordered
  have secondOrdered := second.ordered
  have lower := disjoint (max first.start second.start)
  simp only [HeightRange.memIff] at lower
  unfold HeightRange.Apart
  omega

/-- The ranges of two lists in the order of their starts. -/
def mergeRanges (first second : List HeightRange) : List HeightRange :=
  first.merge second fun earlier later => earlier.start ≤ later.start

theorem coversMergeRanges (first second : List HeightRange) (height : Nat) :
    Covers (mergeRanges first second) height ↔ Covers first height ∨ Covers second height := by
  simp only [Covers, mergeRanges, List.mem_merge, or_and_right, exists_or]

/-- Separated ranges that hold no common height follow each other when they are merged. -/
theorem mergeRangesFollow (separatedFirst : Separated first) (separatedSecond : Separated second)
    (disjoint : ∀ height, Covers first height → ¬Covers second height) :
    (mergeRanges first second).Pairwise fun earlier later => earlier.stop < later.start := by
  have startsAscend {ranges : List HeightRange} (separated : Separated ranges) :
      ranges.Pairwise fun earlier later => decide (earlier.start ≤ later.start) := by
    refine separated.imp fun {earlier later} apart => decide_eq_true ?_
    have ordered := earlier.ordered
    omega
  have starts : (mergeRanges first second).Pairwise fun earlier later =>
      decide (earlier.start ≤ later.start) :=
    List.pairwise_merge (by simp only [decide_eq_true_eq]; omega)
      (by simp only [Bool.or_eq_true, decide_eq_true_eq]; omega) first second
      (startsAscend separatedFirst) (startsAscend separatedSecond)
  have apart : (mergeRanges first second).Pairwise HeightRange.Apart := by
    have symmetric : ∀ {earlier later : HeightRange}, earlier.Apart later → later.Apart earlier :=
      Or.symm
    refine (List.merge_perm_append _).symm.pairwise (List.pairwise_append.mpr ?_) symmetric
    refine ⟨separatedFirst.imp fun apart => .inl (Nat.lt_of_succ_lt apart),
      separatedSecond.imp fun apart => .inl (Nat.lt_of_succ_lt apart), ?_⟩
    intro range member other otherMember
    exact HeightRange.apartOfDisjoint fun height inside otherInside =>
      disjoint height ⟨range, member, inside⟩ ⟨other, otherMember, otherInside⟩
  refine starts.imp₂ (fun earlier later start apart => ?_) apart
  have ordered := later.ordered
  rcases apart with before | behind
  · exact before
  · have start := of_decide_eq_true start
    have ordered := earlier.ordered
    omega

/-- Separated ranges that hold no common height and together hold a whole range tile it. -/
theorem mergeRangesTile (separatedFirst : Separated first) (separatedSecond : Separated second)
    {start count : Nat}
    (whole : ∀ height, Covers first height ∨ Covers second height ↔
      start ≤ height ∧ height < start + count)
    (disjoint : ∀ height, Covers first height → ¬Covers second height) :
    (mergeRanges first second).flatMap HeightRange.heights = List.range' start count := by
  have ascending := heightsOfFollowing (mergeRangesFollow separatedFirst separatedSecond disjoint)
  refine List.Pairwise.eq_of_mem_iff ascending List.pairwise_lt_range' fun height => ?_
  rw [memFlatHeights, coversMergeRanges, whole, List.mem_range'_1]

theorem totalSizeEq (ranges : List HeightRange) :
    totalSize ranges = (ranges.flatMap HeightRange.heights).length := by
  induction ranges with
  | nil => rfl
  | cons range rest inductionHypothesis =>
      rw [totalSize, List.foldr_cons, ← totalSize, inductionHypothesis, List.flatMap_cons,
        List.length_append, HeightRange.lengthHeights]

/-- Merging neither adds a height nor loses one. -/
theorem totalSizeMergeRanges (first second : List HeightRange) :
    totalSize (mergeRanges first second) = totalSize first + totalSize second := by
  have merged : (mergeRanges first second).Perm (first ++ second) := List.merge_perm_append _
  simp only [totalSizeEq]
  rw [(merged.flatMap_right _).length_eq, List.flatMap_append, List.length_append]

/-- Separated ranges do not hold the height behind one of them. -/
theorem notCoversBehind {ranges : List HeightRange} (separated : Separated ranges)
    {range : HeightRange} (member : range ∈ ranges) : ¬Covers ranges (range.stop + 1) := by
  induction ranges with
  | nil => exact coversNil _
  | cons head rest inductionHypothesis =>
      have ordered := range.ordered
      rw [coversCons]
      rcases List.mem_cons.mp member with rfl | later
      · rintro (inside | covered)
        · exact Nat.lt_irrefl _ inside.2
        · exact Nat.lt_irrefl _ (aboveOfSeparated separated covered)
      · have apart : head.stop + 1 < range.start := List.rel_of_pairwise_cons separated later
        rintro (inside | covered)
        · have within := inside.2
          omega
        · exact inductionHypothesis separated.of_cons later covered

end Tiling

section Complement

/-- What is missing from ascending heights lies below the highest of them, is none of them and,
unless all heights from zero on are looked for, lies above the lowest. -/
theorem coversGaps (fromGenesis : Bool) {heights : List Nat} (ascending : heights.Pairwise (· ≤ ·))
    {lowest highest : Nat} (least : heights.min? = some lowest)
    (greatest : heights.max? = some highest) (height : Nat) :
    Covers (gapsOfHeights fromGenesis heights) height ↔
      height ≤ highest ∧ height ∉ heights ∧ (fromGenesis = true ∨ lowest < height) := by
  obtain ⟨lowestMem, lowestLe⟩ := List.min?_eq_some_iff.mp least
  obtain ⟨highestMem, leHighest⟩ := List.max?_eq_some_iff.mp greatest
  rw [← gapsDropRepeats, coversGapsOfHeights fromGenesis (dropRepeatsAscend ascending), MissingFrom]
  simp only [memDropRepeats]
  constructor
  · rintro ⟨absent, ⟨above, aboveMem, under⟩, origin⟩
    refine ⟨Nat.le_trans (Nat.le_of_lt under) (leHighest above aboveMem), absent, ?_⟩
    rcases origin with whole | ⟨below, belowMem, beyond⟩
    · exact .inl whole
    · exact .inr (Nat.lt_of_le_of_lt (lowestLe below belowMem) beyond)
  · rintro ⟨under, absent, origin⟩
    have different : height ≠ highest := fun same => absent (same ▸ highestMem)
    refine ⟨absent, ⟨highest, highestMem, Nat.lt_of_le_of_ne under different⟩, ?_⟩
    exact origin.imp_right fun beyond => ⟨lowest, lowestMem, beyond⟩

theorem separatedGaps (fromGenesis : Bool) {heights : List Nat}
    (ascending : heights.Pairwise (· ≤ ·)) : Separated (gapsOfHeights fromGenesis heights) := by
  rw [← gapsDropRepeats]
  exact separatedGapsOfHeights fromGenesis (dropRepeatsAscend ascending)

theorem coversCollapse (heights : List Nat) (height : Nat) :
    Covers (collapse heights) height ↔ height ∈ heights := by
  rw [← memFlatHeights, collapseHeights, memSortedHeights]

/-- Between two missing ranges there is a height of the list. -/
theorem gapsDivided (fromGenesis : Bool) {heights : List Nat}
    (ascending : heights.Pairwise (· ≤ ·)) :
    (gapsOfHeights fromGenesis heights).Pairwise fun first second =>
      ∃ height ∈ heights, first.stop < height ∧ height < second.start := by
  have separated := separatedGaps fromGenesis ascending
  have missing := fun height =>
    coversGapsOfHeights fromGenesis (dropRepeatsAscend ascending) height
  simp only [gapsDropRepeats, MissingFrom, memDropRepeats] at missing
  refine separated.imp_of_mem fun {first second} firstMem secondMem apart => ?_
  refine ⟨first.stop + 1, ?_, Nat.lt_succ_self _, apart⟩
  -- The height behind a missing range is not missing, and the next missing range lies above it.
  by_contra absent
  refine notCoversBehind separated firstMem ((missing _).mpr ⟨absent, ?_, ?_⟩)
  · obtain ⟨_, ⟨above, aboveMem, under⟩, _⟩ :=
      (missing second.start).mp ⟨second, secondMem, second.startMem⟩
    exact ⟨above, aboveMem, Nat.lt_trans apart under⟩
  · obtain ⟨_, _, origin⟩ := (missing first.stop).mp ⟨first, firstMem, first.stopMem⟩
    rcases origin with whole | ⟨below, belowMem, beyond⟩
    · exact .inl whole
    · exact .inr ⟨below, belowMem, Nat.lt_succ_of_lt beyond⟩

/-- The missing ranges and those that the heights collapse into tile the range up to the highest
height, which starts at zero or at the lowest height. -/
theorem gapsTile (fromGenesis : Bool) {heights : List Nat} (ascending : heights.Pairwise (· ≤ ·))
    {lowest highest : Nat} (least : heights.min? = some lowest)
    (greatest : heights.max? = some highest) :
    let origin := if fromGenesis then 0 else lowest
    (mergeRanges (gapsOfHeights fromGenesis heights) (collapse heights)).flatMap
        HeightRange.heights = List.range' origin (highest + 1 - origin) := by
  intro origin
  obtain ⟨lowestMem, lowestLe⟩ := List.min?_eq_some_iff.mp least
  obtain ⟨highestMem, leHighest⟩ := List.max?_eq_some_iff.mp greatest
  have missing := coversGaps fromGenesis ascending least greatest
  have ordered := leHighest lowest lowestMem
  refine mergeRangesTile (separatedGaps fromGenesis ascending) (separatedCollapse heights)
    (fun height => ?_) fun height covered => ?_
  · rw [missing, coversCollapse]
    by_cases member : height ∈ heights
    · have above := lowestLe height member
      have under := leHighest height member
      simp only [member, not_true_eq_false, false_and, and_false, or_true, true_iff]
      cases fromGenesis <;> simp only [origin, Bool.false_eq_true, if_true, if_false] <;> omega
    · have different : height ≠ lowest := fun same => member (same ▸ lowestMem)
      simp only [member, not_false_eq_true, true_and, or_false]
      cases fromGenesis <;>
        simp only [origin, Bool.false_eq_true, false_or, true_or, and_true, if_true, if_false] <;>
          omega
  · rw [coversCollapse]
    exact ((missing height).mp covered).2.1

end Complement

/-- The bounds of a range, as two words. -/
structure WordRange where
  start : UInt64
  stop : UInt64
deriving DecidableEq, Repr

namespace WordRange

/-- The sum of a word and one, cut to the largest word. -/
def next (word : UInt64) : UInt64 :=
  if word.toNat = maxWord then word else word + 1

/-- The sum of a word and one, unless it does not fit a word. -/
def next? (word : UInt64) : Option UInt64 :=
  if word.toNat = maxWord then none else some (word + 1)

/-- The range below a word. -/
def below (height : UInt64) : Except MachineFault (List WordRange) :=
  if 0 < height then do
    return [⟨0, ← Machine.minus height 1⟩]
  else .ok []

/-- The range strictly between two words. -/
def between (lower upper : UInt64) : Except MachineFault (List WordRange) :=
  if next lower < upper then do
    return [⟨← Machine.plus lower 1, ← Machine.minus upper 1⟩]
  else .ok []

/-- The ranges between neighbours of a list of words. -/
def interior : List UInt64 → Except MachineFault (List WordRange)
  | lower :: upper :: rest => do
      let first ← between lower upper
      let others ← interior (upper :: rest)
      return first ++ others
  | _ => .ok []

/-- The ranges missing from an ascending list of words. -/
def gaps (fromGenesis : Bool) (words : List UInt64) : Except MachineFault (List WordRange) :=
  match words with
  | [] => .ok []
  | lowest :: _ => do
      let first ← if fromGenesis then below lowest else .ok []
      let others ← interior words
      return first ++ others

/-- Whether the ranges ascend with a word between each of them and the next. -/
def accepts : List WordRange → Bool
  | first :: second :: rest => next first.stop < second.start && accepts (second :: rest)
  | _ => true

/-- The number of words of a range. -/
def size (range : WordRange) : Except MachineFault UInt64 := do
  Machine.plus (← Machine.minus range.stop range.start) 1

/-- The number of words of all ranges, on top of a sum. -/
def total (ranges : List WordRange) (sum : UInt64) : Except MachineFault UInt64 :=
  ranges.foldlM (fun sum range => do Machine.plus sum (← range.size)) sum

/-- A word above all others joins the last range, which is held first, when it follows it directly.
-/
def append (ranges : List WordRange) (height : UInt64) : List WordRange :=
  match ranges with
  | last :: before =>
      if next? last.stop = some height then ⟨last.start, height⟩ :: before
      else ⟨height, height⟩ :: ranges
  | [] => [⟨height, height⟩]

/-- The fewest ranges that hold exactly the words of a list. -/
def collapse (words : List UInt64) : List WordRange :=
  ((dropRepeats (words.mergeSort (· ≤ ·))).foldl append []).reverse

/-- Both bounds of a range of words are those of a range. -/
structure Bounds (words : WordRange) (range : HeightRange) : Prop where
  start : words.start.toNat = range.start
  stop : words.stop.toNat = range.stop

/-- The words of a list of ranges are the bounds of another one. -/
abbrev Hold (words : List WordRange) (ranges : List HeightRange) : Prop :=
  List.Forall₂ Bounds words ranges

theorem succToNat {word : UInt64} (small : word.toNat ≠ maxWord) :
    (word + 1).toNat = word.toNat + 1 := by
  have fits := wordLe word
  rw [UInt64.toNat_add]
  simp only [maxWord, Nat.pow_eq, UInt64.reduceToNat] at *
  omega

theorem predToNat {word : UInt64} (positive : 0 < word.toNat) :
    (word - 1).toNat = word.toNat - 1 :=
  UInt64.toNat_sub_of_le word 1 (UInt64.le_iff_toNat_le.mpr positive)

theorem nextLt (word other : UInt64) : next word < other ↔ word.toNat + 1 < other.toNat := by
  have fits := wordLe other
  rw [UInt64.lt_iff_toNat_lt, next]
  split
  · omega
  · rw [succToNat ‹_›]

theorem nextEqSome (word other : UInt64) :
    next? word = some other ↔ word.toNat + 1 = other.toNat := by
  have fits := wordLe other
  unfold next?
  split
  · simp only [reduceCtorEq, false_iff]
    omega
  · rw [Option.some_inj, ← UInt64.toNat_inj, succToNat ‹_›]

theorem belowHolds (height : UInt64) : ∃ ranges, below height = .ok ranges ∧
    Hold ranges (rangeBelow? height.toNat).toList := by
  unfold below rangeBelow?
  have same : 0 < height ↔ 0 < height.toNat := UInt64.lt_iff_toNat_lt
  by_cases positive : 0 < height.toNat
  · obtain ⟨stop, taken, value⟩ := Machine.predOk positive
    refine ⟨[⟨0, stop⟩], ?_, ?_⟩
    · rw [if_pos (same.mpr positive), taken]
      rfl
    · rw [if_pos positive]
      exact .cons ⟨rfl, value⟩ .nil
  · rw [if_neg (mt same.mp positive), if_neg positive]
    exact ⟨[], rfl, .nil⟩

/-- Where there is room between two words, neither the sum nor the difference leaves the words. -/
theorem betweenHolds (lower upper : UInt64) : ∃ ranges, between lower upper = .ok ranges ∧
    Hold ranges (rangeBetween? lower.toNat upper.toNat).toList := by
  unfold between rangeBetween?
  by_cases room : lower.toNat + 1 < upper.toNat
  · have fits := wordLe upper
    obtain ⟨start, added, startValue⟩ :=
      Machine.succOk (show lower.toNat < maxWord by omega)
    obtain ⟨stop, taken, stopValue⟩ := Machine.predOk (show 0 < upper.toNat by omega)
    refine ⟨[⟨start, stop⟩], ?_, ?_⟩
    · rw [if_pos ((nextLt lower upper).mpr room), added, taken]
      rfl
    · rw [dif_pos room]
      exact .cons ⟨startValue, stopValue⟩ .nil
  · rw [if_neg (mt (nextLt lower upper).mp room), dif_neg room]
    exact ⟨[], rfl, .nil⟩

theorem interiorHolds (words : List UInt64) : ∃ ranges, interior words = .ok ranges ∧
    Hold ranges (interiorGaps (words.map UInt64.toNat)) := by
  fun_induction interior words with
  | case1 lower upper rest inductionHypothesis =>
      obtain ⟨first, here, holdFirst⟩ := betweenHolds lower upper
      obtain ⟨others, later, holdOthers⟩ := inductionHypothesis
      refine ⟨first ++ others, ?_, List.rel_append holdFirst holdOthers⟩
      rw [here, later]
      rfl
  | case2 words short =>
      match words, short with
      | [], _ => exact ⟨[], rfl, .nil⟩
      | [word], _ => exact ⟨[], rfl, .nil⟩
      | first :: second :: rest, short => exact absurd rfl (short first second rest)

/-- No bound of a missing range is beyond the words or below them. -/
theorem gapsHold (fromGenesis : Bool) (words : List UInt64) :
    ∃ ranges, gaps fromGenesis words = .ok ranges ∧
      Hold ranges (gapsOfHeights fromGenesis (words.map UInt64.toNat)) := by
  cases words with
  | nil => exact ⟨[], rfl, .nil⟩
  | cons lowest rest =>
      obtain ⟨others, later, holdOthers⟩ := interiorHolds (lowest :: rest)
      cases fromGenesis with
      | true =>
          obtain ⟨first, here, holdFirst⟩ := belowHolds lowest
          refine ⟨first ++ others, ?_, List.rel_append holdFirst holdOthers⟩
          rw [gaps, if_pos rfl, here, later]
          rfl
      | false =>
          refine ⟨others, ?_, holdOthers⟩
          rw [gaps, later]
          rfl

theorem acceptsEq {words : List WordRange} {ranges : List HeightRange}
    (hold : Hold words ranges) : accepts words = (gapConflict? ranges).isNone := by
  induction hold with
  | nil => rfl
  | @cons first range _ _ bounds rest inductionHypothesis =>
      cases rest with
      | nil => rfl
      | @cons second other _ _ otherBounds rest =>
          have same : next first.stop < second.start ↔ range.stop + 1 < other.start := by
            rw [nextLt, bounds.stop, otherBounds.start]
          rw [accepts, gapConflict?, inductionHypothesis]
          by_cases apart : range.stop + 1 < other.start
          · rw [if_neg (Nat.not_le.mpr apart), decide_eq_true (same.mpr apart), Bool.true_and]
          · rw [if_pos (Nat.le_of_not_lt apart), decide_eq_false (mt same.mp apart),
              Bool.false_and]
            rfl

theorem appendHolds {words : List WordRange} {ranges : List HeightRange}
    (hold : Hold words ranges) (height : UInt64) :
    Hold (append words height) (appendHeight ranges height.toNat) := by
  cases hold with
  | nil => exact .cons ⟨rfl, rfl⟩ .nil
  | @cons last range before earlier bounds rest =>
      have same : next? last.stop = some height ↔ range.stop + 1 = height.toNat := by
        rw [nextEqSome, bounds.stop]
      unfold append appendHeight
      by_cases follows : range.stop + 1 = height.toNat
      · simp only [if_pos (same.mpr follows), dif_pos follows]
        exact .cons ⟨bounds.start, rfl⟩ rest
      · simp only [if_neg (mt same.mp follows), dif_neg follows]
        exact .cons ⟨rfl, rfl⟩ (.cons bounds rest)

/-- Words are sorted as the heights that they are. -/
theorem sortedWords (words : List UInt64) : sortedHeights (words.map UInt64.toNat) =
    (dropRepeats (words.mergeSort (· ≤ ·))).map UInt64.toNat := by
  have mapped : (words.mergeSort (· ≤ ·)).map UInt64.toNat =
      (words.map UInt64.toNat).mergeSort (· ≤ ·) :=
    List.map_mergeSort fun _ _ _ _ => decide_eq_decide.mpr UInt64.le_iff_toNat_le
  rw [sortedHeights, ← dropRepeatsMap fun _ _ => UInt64.toNat_inj.mp, mapped]

/-- Words collapse into the same ranges as the heights that they are. -/
theorem collapseHolds (words : List UInt64) :
    Hold (collapse words) (Backfill.collapse (words.map UInt64.toNat)) := by
  have build (listed : List UInt64) (before : List WordRange) (ranges : List HeightRange)
      (hold : Hold before ranges) :
      Hold (listed.foldl append before) ((listed.map UInt64.toNat).foldl appendHeight ranges) := by
    induction listed generalizing before ranges with
    | nil => exact hold
    | cons height rest inductionHypothesis => exact inductionHypothesis _ _ (appendHolds hold height)
  rw [collapse, Backfill.collapse, sortedWords]
  exact List.rel_reverse (build _ [] [] .nil)

theorem sizeOk {words : WordRange} {range : HeightRange} (bounds : words.Bounds range)
    (fits : range.size ≤ maxWord) :
    ∃ word : UInt64, words.size = .ok word ∧ word.toNat = range.size := by
  have ordered := range.ordered
  obtain ⟨distance, taken, distanceValue⟩ :=
    Machine.minusOk (show words.start.toNat ≤ words.stop.toNat by
      rw [bounds.start, bounds.stop]
      exact ordered)
  rw [bounds.start, bounds.stop] at distanceValue
  rw [HeightRange.size] at fits ⊢
  obtain ⟨word, added, value⟩ := Machine.succOk (show distance.toNat < maxWord by omega)
  refine ⟨word, ?_, by omega⟩
  rw [size, taken]
  exact added

/-- Every sum on the way to the number of all words fits if that number does. -/
theorem totalOk (sum : UInt64) {words : List WordRange} {ranges : List HeightRange}
    (hold : Hold words ranges) (fits : sum.toNat + totalSize ranges ≤ maxWord) :
    ∃ word : UInt64, total words sum = .ok word ∧ word.toNat = sum.toNat + totalSize ranges := by
  induction hold generalizing sum with
  | nil => exact ⟨sum, rfl, rfl⟩
  | @cons words range _ _ bounds _ inductionHypothesis =>
      rw [totalSize, List.foldr_cons, ← totalSize] at fits ⊢
      obtain ⟨count, sized, countValue⟩ := sizeOk bounds (by omega)
      obtain ⟨next, added, nextValue⟩ :=
        Machine.plusOk (show sum.toNat + count.toNat ≤ maxWord by omega)
      obtain ⟨word, totalled, value⟩ := inductionHypothesis next (by omega)
      refine ⟨word, ?_, by omega⟩
      rw [total, List.foldlM_cons, sized]
      change (Machine.plus sum count >>= _) = _
      rw [added]
      exact totalled

end WordRange

/-- The missing heights and the others are as many as the heights from the origin on. -/
theorem totalGaps (fromGenesis : Bool) {heights : List Nat} (ascending : heights.Pairwise (· ≤ ·))
    {lowest highest : Nat} (least : heights.min? = some lowest)
    (greatest : heights.max? = some highest) :
    totalSize (gapsOfHeights fromGenesis heights) + (sortedHeights heights).length =
      highest + 1 - if fromGenesis then 0 else lowest := by
  rw [← collapseHeights, ← totalSizeEq, ← totalSizeMergeRanges, totalSizeEq,
    gapsTile fromGenesis ascending least greatest, List.length_range']

/-- What is missing from ascending words is the complement of the ranges that the words collapse
into, and a machine computes it without leaving the words. -/
theorem gapsComplement (words : List UInt64) (nonempty : words ≠ [])
    (ascending : words.Pairwise (· ≤ ·)) :
    let heights := words.map UInt64.toNat
    ∃ lowest highest, heights.min? = some lowest ∧ heights.max? = some highest ∧
      ∀ fromGenesis,
        let gaps := gapsOfHeights fromGenesis heights
        let origin := if fromGenesis then 0 else lowest
        (∀ height, Covers gaps height ↔
          height ≤ highest ∧ height ∉ heights ∧ (fromGenesis = true ∨ lowest < height)) ∧
        (gaps.Pairwise fun first second =>
          ∃ height ∈ heights, first.stop < height ∧ height < second.start) ∧
        gapConflict? gaps = none ∧
        (mergeRanges gaps (collapse heights)).flatMap HeightRange.heights =
          List.range' origin (highest + 1 - origin) ∧
        totalSize gaps + (sortedHeights heights).length = highest + 1 - origin ∧
        WordRange.Hold (WordRange.collapse words) (collapse heights) ∧
        ∃ ranges missing, WordRange.gaps fromGenesis words = .ok ranges ∧
          WordRange.Hold ranges gaps ∧ WordRange.accepts ranges = true ∧
          WordRange.total ranges 0 = .ok missing ∧ missing.toNat = totalSize gaps := by
  intro heights
  have sorted : heights.Pairwise (· ≤ ·) :=
    List.pairwise_map.mpr (ascending.imp UInt64.le_iff_toNat_le.mp)
  have some : heights ≠ [] := mt List.map_eq_nil_iff.mp nonempty
  obtain ⟨lowest, least⟩ := Option.isSome_iff_exists.mp (List.isSome_min?_of_ne_nil some)
  obtain ⟨highest, greatest⟩ := Option.isSome_iff_exists.mp (List.isSome_max?_of_ne_nil some)
  refine ⟨lowest, highest, least, greatest, fun fromGenesis => ?_⟩
  have accepted := gapConflictEqNone (separatedGaps fromGenesis sorted)
  have total := totalGaps fromGenesis sorted least greatest
  refine ⟨coversGaps fromGenesis sorted least greatest, gapsDivided fromGenesis sorted, accepted,
    gapsTile fromGenesis sorted least greatest, total, WordRange.collapseHolds words, ?_⟩
  -- A height that is not missing leaves room for the number of those that are.
  have fits : totalSize (gapsOfHeights fromGenesis heights) ≤ maxWord := by
    have present := List.length_pos_of_ne_nil (mt (sortedHeightsEqNil heights).mp some)
    obtain ⟨word, _, rfl⟩ := List.mem_map.mp (List.max?_eq_some_iff.mp greatest).1
    have within := wordLe word
    omega
  obtain ⟨ranges, found, hold⟩ := WordRange.gapsHold fromGenesis words
  obtain ⟨missing, totalled, value⟩ := WordRange.totalOk 0 hold (by
    rw [UInt64.toNat_zero, Nat.zero_add]
    exact fits)
  rw [UInt64.toNat_zero, Nat.zero_add] at value
  refine ⟨ranges, missing, found, hold, ?_, totalled, value⟩
  rw [WordRange.acceptsEq hold, accepted]
  rfl

/-- Of the words up to the largest one all but four are missing from a list of five, of which one is
there twice. -/
theorem gapsComplementRepeated :
    let words : List UInt64 := [3, 3, 4, 6, 18446744073709551615]
    words ≠ [] ∧ words.Pairwise (· ≤ ·) ∧
      ∃ lowest highest, (words.map UInt64.toNat).min? = some lowest ∧
        (words.map UInt64.toNat).max? = some highest ∧
        Covers (gapsOfHeights true (words.map UInt64.toNat)) 0 ∧
        ¬Covers (gapsOfHeights false (words.map UInt64.toNat)) 0 ∧
        Covers (gapsOfHeights false (words.map UInt64.toNat)) 18446744073709551614 ∧
        ∃ ranges missing, WordRange.gaps true words = .ok ranges ∧
          WordRange.total ranges 0 = .ok missing ∧ missing.toNat + 4 = Nat.pow 2 64 := by
  intro words
  have nonempty : words ≠ [] := by decide
  have ascending : words.Pairwise (· ≤ ·) := by decide
  obtain ⟨lowest, highest, least, greatest, complement⟩ :=
    gapsComplement words nonempty ascending
  obtain rfl : 3 = lowest := by simpa [words] using least
  obtain rfl : 18446744073709551615 = highest := by simpa [words] using greatest
  obtain ⟨covers, _, _, _, number, _, ranges, missing, found, _, _, totalled, value⟩ :=
    complement true
  obtain ⟨coversAbove, _⟩ := complement false
  refine ⟨nonempty, ascending, 3, 18446744073709551615, least, greatest, ?_, ?_, ?_, ?_⟩
  · exact (covers 0).mpr (by decide)
  · rw [coversAbove]
    decide
  · exact (coversAbove _).mpr (by decide)
  · have sorted : (words.map UInt64.toNat).Pairwise (· ≤ ·) := by decide
    rw [sortedHeightsOfSorted sorted] at number
    have kept : (dropRepeats (words.map UInt64.toNat)).length = 4 := by decide
    refine ⟨ranges, missing, found, totalled, ?_⟩
    rw [value, ← kept, number]
    rfl

end Backfill
