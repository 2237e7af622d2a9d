/-
This file shows that the windows of a range tile it, and that a cursor over words yields these
windows one after another and then ends.
-/

import Backfill.Proofs.Height.Complement
import Backfill.Proofs.Height.Windows
import Mathlib.Algebra.Order.Floor.Div

namespace Backfill

namespace HeightRange

variable {range rest window : HeightRange} {windows : List HeightRange} {width : Nat}

/-- Windows of a width tile a range if they follow each other from its start to its stop and all but
the last one have the whole width. -/
structure Tiles (width : Nat) (range : HeightRange) (windows : List HeightRange) : Prop where
  first : windows.head?.map start = some range.start
  last : windows.getLast?.map stop = some range.stop
  follows : windows.IsChain fun earlier later => later.start = earlier.stop + 1
  whole : ∀ window ∈ windows.dropLast, window.size = width
  most : ∀ window ∈ windows, 1 ≤ window.size ∧ window.size ≤ width

/-- A range that is not wider than a window is tiled by itself. -/
theorem tilesSingle (fits : range.size ≤ width) : Tiles width range [range] where
  first := rfl
  last := rfl
  follows := .singleton range
  whole := nofun
  most := by
    intro window member
    obtain rfl := List.mem_singleton.mp member
    exact ⟨window.sizePositive, fits⟩

/-- A whole window before a tiled range tiles both. -/
theorem tilesCons (tiles : Tiles width rest windows) (starts : window.start = range.start)
    (next : rest.start = window.stop + 1) (stops : rest.stop = range.stop)
    (whole : window.size = width) : Tiles width range (window :: windows) := by
  have first := tiles.first
  cases windows with
  | nil => cases first
  | cons head later =>
      have behind : head.start = rest.start := Option.some.inj first
      constructor
      case first => exact congrArg some starts
      case last => rw [List.getLast?_cons_cons, tiles.last, stops]
      case follows => exact List.isChain_cons_cons.mpr ⟨behind.trans next, tiles.follows⟩
      case whole =>
        rw [List.dropLast_cons_of_ne_nil (List.cons_ne_nil head later)]
        exact List.forall_mem_cons.mpr ⟨whole, tiles.whole⟩
      case most =>
        exact List.forall_mem_cons.mpr ⟨⟨window.sizePositive, Nat.le_of_eq whole⟩, tiles.most⟩

/-- The windows of a range tile it. -/
theorem windowsTile (range : HeightRange) (width : Nat) :
    Tiles (max width 1) range (range.windows width) := by
  fun_induction range.windows width with
  | case1 range last =>
      rw [splitWindowLast last]
      have under := splitWindowNone.mp last
      apply tilesSingle
      unfold size
      omega
  | case2 range rest more _ inductionHypothesis =>
      obtain ⟨starts, ends, next, stops⟩ := splitWindowBounds more
      apply tilesCons inductionHypothesis starts (ends ▸ next) stops
      unfold size
      omega

/-- There are as few windows as can hold all heights of the range. -/
theorem lengthWindows (range : HeightRange) (width : Nat) :
    (range.windows width).length = range.size ⌈/⌉ max width 1 := by
  have positive : 0 < max width 1 := Nat.lt_of_lt_of_le Nat.one_pos (Nat.le_max_right width 1)
  fun_induction range.windows width with
  | case1 range last =>
      have under := splitWindowNone.mp last
      have size := range.sizePositive
      rw [List.length_singleton, Nat.ceilDiv_eq_add_pred_div]
      symm
      apply Nat.div_eq_of_lt_le
      · omega
      · unfold HeightRange.size at size ⊢
        omega
  | case2 range rest more _ inductionHypothesis =>
      obtain ⟨starts, ends, next, stops⟩ := splitWindowBounds more
      have ordered := rest.ordered
      have count : range.size = rest.size + max width 1 := by
        unfold size
        omega
      rw [List.length_cons, inductionHypothesis, Nat.ceilDiv_eq_add_pred_div,
        Nat.ceilDiv_eq_add_pred_div, count, ← Nat.add_div_right _ positive]
      congr 1
      omega

end HeightRange

namespace WordRange

/-- The sum of two words, cut to the largest word. -/
def sumCut (first second : UInt64) : UInt64 :=
  if maxWord < first.toNat + second.toNat then UInt64.ofNat maxWord else first + second

theorem sumCutToNat (first second : UInt64) :
    (sumCut first second).toNat = min (first.toNat + second.toNat) maxWord := by
  unfold sumCut
  split
  · rw [Nat.min_eq_right (Nat.le_of_lt ‹_›)]
    rfl
  · have fits : first.toNat + second.toNat ≤ maxWord := Nat.le_of_not_lt ‹_›
    rw [Nat.min_eq_left fits, UInt64.toNat_add]
    exact Nat.mod_eq_of_lt (Nat.lt_of_le_pred (by decide) fits)

end WordRange

/-- A cursor over the windows of a range knows where the next window starts, unless it has yielded
the last one. -/
structure WindowCursor where
  next : Option UInt64
  stop : UInt64
  width : UInt64
deriving DecidableEq, Repr

namespace WindowCursor

variable {cursor : WindowCursor} {left rest : HeightRange} {width : Nat}

/-- The cursor before the first window, where a width of zero is taken as one. -/
def ofRange (range : WordRange) (width : UInt64) : WindowCursor :=
  ⟨some range.start, range.stop, max width 1⟩

/-- The next window, and the cursor behind it. -/
def advance (cursor : WindowCursor) : Option (WordRange × WindowCursor) :=
  match cursor.next with
  | none => none
  | some start =>
      let stop := min (WordRange.sumCut start (cursor.width - 1)) cursor.stop
      let next := if stop = cursor.stop then none else some (stop + 1)
      some (⟨start, stop⟩, { cursor with next })

/-- A cursor yields some windows if it ends when it has advanced over each of them. -/
inductive Yields : WindowCursor → List WordRange → Prop
  | ended {cursor : WindowCursor} (done : cursor.advance = none) : cursor.Yields []
  | window {cursor after : WindowCursor} {window : WordRange} {later : List WordRange}
      (advanced : cursor.advance = some (window, after)) (rest : after.Yields later) :
      cursor.Yields (window :: later)

/-- What a cursor yields is determined. -/
theorem yieldsUnique {first second : List WordRange} (yields : cursor.Yields first)
    (others : cursor.Yields second) : first = second := by
  induction yields generalizing second with
  | ended done =>
      cases others with
      | ended => rfl
      | window advanced => cases done.symm.trans advanced
  | window advanced _ inductionHypothesis =>
      cases others with
      | ended done => cases done.symm.trans advanced
      | window again later =>
          cases Option.some.inj (advanced.symm.trans again)
          rw [inductionHypothesis later]

/-- A cursor stands before a range if its next window starts with the range and its last one stops
with it. -/
structure Stands (width : Nat) (cursor : WindowCursor) (left : HeightRange) : Prop where
  next : ∃ start, cursor.next = some start ∧ start.toNat = left.start
  stop : cursor.stop.toNat = left.stop
  width : cursor.width.toNat = max width 1

theorem standsOfRange (range : WordRange) (width : UInt64) (ordered : range.start ≤ range.stop) :
    (ofRange range width).Stands width.toNat
      ⟨range.start.toNat, range.stop.toNat, UInt64.le_iff_toNat_le.mp ordered⟩ :=
  ⟨⟨range.start, rfl, rfl⟩, rfl, UInt64.toNat_max width 1⟩

/-- The sum that a cursor takes is cut only if it is beyond the range anyway. -/
theorem stopToNat (stands : cursor.Stands width left) {start : UInt64}
    (same : start.toNat = left.start) :
    (min (WordRange.sumCut start (cursor.width - 1)) cursor.stop).toNat =
      min (left.start + (max width 1 - 1)) left.stop := by
  have fits : left.stop ≤ maxWord := stands.stop ▸ wordLe cursor.stop
  have positive : 0 < cursor.width.toNat := by
    rw [stands.width]
    exact Nat.lt_of_lt_of_le Nat.one_pos (Nat.le_max_right width 1)
  rw [UInt64.toNat_min, WordRange.sumCutToNat, WordRange.predToNat positive, same, stands.width,
    stands.stop]
  omega

/-- A cursor ends behind the last window. -/
theorem advanceLast (stands : cursor.Stands width left)
    (last : (left.splitWindow width).2 = none) :
    ∃ window after, cursor.advance = some (window, after) ∧ window.Bounds left ∧
      after.advance = none := by
  obtain ⟨start, next, same⟩ := stands.next
  have stop := stopToNat stands same
  rw [Nat.min_eq_right (HeightRange.splitWindowNone.mp last), ← stands.stop] at stop
  have final := UInt64.toNat_inj.mp stop
  refine ⟨⟨start, cursor.stop⟩, { cursor with next := none }, ?_, ⟨same, stands.stop⟩, rfl⟩
  simp only [advance, next, final, if_pos]

/-- A cursor that has advanced over another window stands before what is left, whose start is a
word. -/
theorem advanceMore (stands : cursor.Stands width left)
    (more : (left.splitWindow width).2 = some rest) :
    ∃ window after, cursor.advance = some (window, after) ∧
      window.Bounds (left.splitWindow width).1 ∧ after.Stands width rest := by
  obtain ⟨start, next, same⟩ := stands.next
  obtain ⟨starts, ends, begins, stops⟩ := HeightRange.splitWindowBounds more
  have ordered := rest.ordered
  have bound : left.stop ≤ maxWord := stands.stop ▸ wordLe cursor.stop
  have stop := stopToNat stands same
  rw [Nat.min_eq_left (by omega)] at stop
  generalize found : min (WordRange.sumCut start (cursor.width - 1)) cursor.stop = last at stop
  have inside : last ≠ cursor.stop := by
    rintro rfl
    have equal := stop.symm.trans stands.stop
    omega
  have behind : (last + 1).toNat = rest.start := by
    rw [WordRange.succToNat, stop, begins]
    omega
  refine ⟨⟨start, last⟩, { cursor with next := some (last + 1) }, ?_,
    ⟨same.trans starts.symm, stop.trans ends.symm⟩,
    ⟨last + 1, rfl, behind⟩, stands.stop.trans stops.symm, stands.width⟩
  simp only [advance, next, found, if_neg inside]

/-- A cursor yields the windows of what it stands before. -/
theorem yieldsWindows (stands : cursor.Stands width left) :
    ∃ yielded, cursor.Yields yielded ∧ WordRange.Hold yielded (left.windows width) := by
  fun_induction left.windows width generalizing cursor with
  | case1 left last =>
      obtain ⟨window, after, advanced, bounds, done⟩ := advanceLast stands last
      rw [HeightRange.splitWindowLast last]
      exact ⟨[window], .window advanced (.ended done), .cons bounds .nil⟩
  | case2 left rest more _ inductionHypothesis =>
      obtain ⟨window, after, advanced, bounds, behind⟩ := advanceMore stands more
      obtain ⟨later, yields, hold⟩ := inductionHypothesis behind
      exact ⟨window :: later, .window advanced yields, .cons bounds hold⟩

/-- The cursor over the windows of a range of words yields windows that tile the range, as few as
can be, and ends. -/
theorem cursorTiles (words : WordRange) (width : UInt64) (ordered : words.start ≤ words.stop) :
    let range : HeightRange :=
      ⟨words.start.toNat, words.stop.toNat, UInt64.le_iff_toNat_le.mp ordered⟩
    let windows := range.windows width.toNat
    (∃ yielded, (∀ others, (ofRange words width).Yields others ↔ others = yielded) ∧
      WordRange.Hold yielded windows) ∧
    HeightRange.Tiles (max width.toNat 1) range windows ∧
    windows.length = range.size ⌈/⌉ max width.toNat 1 ∧
    windows.flatMap HeightRange.heights =
      List.range' range.start (range.stop - range.start + 1) := by
  intro range windows
  obtain ⟨yielded, yields, hold⟩ := yieldsWindows (standsOfRange words width ordered)
  have only : ∀ others, (ofRange words width).Yields others ↔ others = yielded := by
    intro others
    constructor
    · intro other
      exact yieldsUnique other yields
    · rintro rfl
      exact yields
  exact ⟨⟨yielded, only, hold⟩, range.windowsTile width.toNat, range.lengthWindows width.toNat,
    range.windowsHeights width.toNat⟩

/-- The last five words. -/
def lastWords : WordRange :=
  ⟨18446744073709551611, 18446744073709551615⟩

/-- The last five words in windows of two, of which the third one has one word only. -/
def lastWindows : List WordRange :=
  [⟨18446744073709551611, 18446744073709551612⟩, ⟨18446744073709551613, 18446744073709551614⟩,
    ⟨18446744073709551615, 18446744073709551615⟩]

/-- The cursor over the last five words does not run over. -/
theorem cursorTilesLast :
    let windows := HeightRange.windows ⟨lastWords.start.toNat, lastWords.stop.toNat, by decide⟩ 2
    lastWords.start ≤ lastWords.stop ∧
      (∀ others, (ofRange lastWords 2).Yields others ↔ others = lastWindows) ∧
      WordRange.Hold lastWindows windows ∧ windows.length = 3 ∧
      windows.flatMap HeightRange.heights =
        [18446744073709551611, 18446744073709551612, 18446744073709551613, 18446744073709551614,
          18446744073709551615] := by
  intro windows
  obtain ⟨⟨yielded, only, hold⟩, _, count, heights⟩ := cursorTiles lastWords 2 (by decide)
  have yields : (ofRange lastWords 2).Yields lastWindows :=
    .window (by rfl) (.window (by rfl) (.window (by rfl) (.ended (by rfl))))
  obtain rfl := (only lastWindows).mp yields
  rw [Nat.ceilDiv_eq_add_pred_div] at count
  exact ⟨by decide, only, hold, count.trans (by decide), heights.trans (by decide)⟩

end WindowCursor

end Backfill
