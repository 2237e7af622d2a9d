/-
This file adds and subtracts words as a machine does that cannot go on when a number does not fit.
-/

import Backfill.Word

namespace Backfill

/-- A machine cannot do a step because a number does not fit its word, because a place is outside a
file, or because a buffer is larger than it may be. -/
inductive MachineFault
  | overflow
  | outside
  | oversized
deriving DecidableEq, Repr

namespace Machine

/-- The word of a number. -/
def counted (number : Nat) : Except MachineFault UInt64 :=
  if number ≤ maxWord then .ok (UInt64.ofNat number) else .error .overflow

/-- The sum of two words, which has to fit a word. -/
def plus (first second : UInt64) : Except MachineFault UInt64 :=
  if first.toNat + second.toNat ≤ maxWord then .ok (first + second) else .error .overflow

/-- The difference of two words, which must not be below zero. -/
def minus (first second : UInt64) : Except MachineFault UInt64 :=
  if second ≤ first then .ok (first - second) else .error .overflow

variable {first second : UInt64}

theorem countedOk {number : Nat} (fits : number ≤ maxWord) :
    ∃ word : UInt64, counted number = .ok word ∧ word.toNat = number := by
  refine ⟨UInt64.ofNat number, if_pos fits, ?_⟩
  simp only [maxWord, Nat.pow_eq] at fits
  rw [UInt64.toNat_ofNat_of_lt' (by simp only [UInt64.size]; omega)]

theorem plusOk (fits : first.toNat + second.toNat ≤ maxWord) :
    ∃ word : UInt64, plus first second = .ok word ∧
      word.toNat = first.toNat + second.toNat := by
  refine ⟨first + second, if_pos fits, ?_⟩
  rw [UInt64.toNat_add]
  exact Nat.mod_eq_of_lt (Nat.lt_of_le_pred (by decide) fits)

theorem minusOk (ordered : second.toNat ≤ first.toNat) :
    ∃ word : UInt64, minus first second = .ok word ∧
      word.toNat = first.toNat - second.toNat := by
  have le := UInt64.le_iff_toNat_le.mpr ordered
  exact ⟨first - second, if_pos le, UInt64.toNat_sub_of_le _ _ le⟩

theorem succOk (small : first.toNat < maxWord) :
    ∃ word : UInt64, plus first 1 = .ok word ∧ word.toNat = first.toNat + 1 :=
  plusOk small

theorem predOk (positive : 0 < first.toNat) :
    ∃ word : UInt64, minus first 1 = .ok word ∧ word.toNat = first.toNat - 1 :=
  minusOk positive

end Machine

end Backfill
