/-
This file holds inclusive ranges of block heights and their division into windows.
-/

namespace Backfill

/-- A range holds every height from its start to its stop, both included. -/
structure HeightRange where
  start : Nat
  stop : Nat
  ordered : start ≤ stop := by omega
deriving DecidableEq, Repr

namespace HeightRange

/-- A pair of heights in the wrong order. -/
structure Inverted where
  start : Nat
  stop : Nat
deriving DecidableEq, Repr

/-- This is the wording of the refusal. -/
def Inverted.message (pair : Inverted) : String :=
  s!"invalid height range: start {pair.start} > end {pair.stop}"

/-- The range between two heights, if they are in order. -/
def ofBounds (start stop : Nat) : Except Inverted HeightRange :=
  if ordered : start ≤ stop then .ok ⟨start, stop, ordered⟩ else .error ⟨start, stop⟩

/-- The range of one height. -/
def single (height : Nat) : HeightRange :=
  ⟨height, height, Nat.le_refl height⟩

/-- The number of heights in the range. -/
def size (range : HeightRange) : Nat :=
  range.stop - range.start + 1

/-- Whether the range holds a height. -/
def contains (range : HeightRange) (height : Nat) : Bool :=
  range.start ≤ height && height ≤ range.stop

instance : Membership Nat HeightRange where
  mem range height := range.start ≤ height ∧ height ≤ range.stop

/-- Every height of the range in ascending order. -/
def heights (range : HeightRange) : List Nat :=
  List.range' range.start range.size

/-- The text of a range gives both its ends. -/
def text (range : HeightRange) : String :=
  s!"[{range.start}, {range.stop}]"

/-- The first window of a range, of at most `width` heights but at least one, and what is left of
the range. -/
def splitWindow (range : HeightRange) (width : Nat) : HeightRange × Option HeightRange :=
  if more : range.start + (max width 1 - 1) < range.stop then
    (⟨range.start, range.start + (max width 1 - 1), by omega⟩,
      some ⟨range.start + (max width 1 - 1) + 1, range.stop, by omega⟩)
  else (range, none)

theorem memIff (range : HeightRange) (height : Nat) :
    height ∈ range ↔ range.start ≤ height ∧ height ≤ range.stop :=
  Iff.rfl

theorem containsIff (range : HeightRange) (height : Nat) :
    range.contains height = true ↔ height ∈ range := by
  simp [contains, memIff]

theorem sizePositive (range : HeightRange) : 0 < range.size :=
  Nat.succ_pos _

theorem memHeights (range : HeightRange) (height : Nat) :
    height ∈ range.heights ↔ height ∈ range := by
  have ordered := range.ordered
  simp only [heights, size, List.mem_range'_1, memIff]
  omega

theorem lengthHeights (range : HeightRange) : range.heights.length = range.size := by
  simp [heights]

theorem splitWindowRest {range rest : HeightRange} {width : Nat}
    (split : (range.splitWindow width).2 = some rest) : rest.size < range.size := by
  unfold splitWindow at split
  split at split
  · obtain rfl := Option.some.inj split
    simp only [size]
    omega
  · cases split

/-- The consecutive windows of a range, each of `width` heights but the last. -/
def windows (range : HeightRange) (width : Nat) : List HeightRange :=
  match split : (range.splitWindow width).2 with
  | none => [(range.splitWindow width).1]
  | some rest =>
      have := splitWindowRest split
      (range.splitWindow width).1 :: rest.windows width
termination_by range.size

/-- The first `count` windows of a range, which need not divide all of it. -/
def takeWindows (width : Nat) : Nat → HeightRange → List HeightRange
  | 0, _ => []
  | count + 1, range =>
      (range.splitWindow width).1 ::
        match (range.splitWindow width).2 with
        | none => []
        | some rest => takeWindows width count rest

theorem windowsOfNone {range : HeightRange} {width : Nat}
    (last : (range.splitWindow width).2 = none) :
    range.windows width = [(range.splitWindow width).1] := by
  rw [windows]
  split <;> simp_all

theorem windowsOfSome {range rest : HeightRange} {width : Nat}
    (more : (range.splitWindow width).2 = some rest) :
    range.windows width = (range.splitWindow width).1 :: rest.windows width := by
  rw [windows]
  split <;> simp_all

theorem takeWindowsEq (width count : Nat) (range : HeightRange) :
    takeWindows width count range = (range.windows width).take count := by
  induction count generalizing range with
  | zero => rfl
  | succ count inductionHypothesis =>
      cases found : (range.splitWindow width).2 with
      | none => simp [takeWindows, found, windowsOfNone found]
      | some rest => simp [takeWindows, found, windowsOfSome found, inductionHypothesis]

end HeightRange

end Backfill
