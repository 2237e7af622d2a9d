/-
This file fixes the size of words.
-/

namespace Backfill

/-- The largest value of a 64-bit word. -/
def maxWord : Nat := Nat.pow 2 64 - 1

/-- The largest value of a signed 64-bit word. -/
def maxSigned : Nat := Nat.pow 2 63 - 1

theorem maxSignedLe : maxSigned ≤ maxWord := by
  decide

theorem wordLe (word : UInt64) : word.toNat ≤ maxWord :=
  Nat.le_sub_one_of_lt word.toNat_lt

end Backfill
