/-
This file writes a double with one place after the point.
-/

import Backfill.Text.Shortest

namespace Backfill.Text

/-- The quotient rounded to the nearest whole number; a half goes to the even neighbour. -/
def roundDiv (numerator denominator : Nat) : Nat :=
  let below := numerator / denominator
  let twice := 2 * (numerator % denominator)
  if twice < denominator then below
  else if denominator < twice then below + 1
  else if below % 2 = 0 then below
  else below + 1

/-- The tenths nearest to a double. -/
def Binary.tenths (binary : Binary) : Nat :=
  roundDiv (10 * binary.significand * Nat.pow 2 binary.exponent.toNat)
    (Nat.pow 2 (-binary.exponent).toNat)

/-- The text of a finite double that is not negative, with one place after the point. -/
def tenthsText (value : Float) : String :=
  let tenths := (Binary.ofBits (value.toBits.toNat % Nat.pow 2 63)).tenths
  s!"{tenths / 10}.{tenths % 10}"

example : (⟨5, -2, false⟩ : Binary).tenths = 12 ∧ (⟨7, -2, false⟩ : Binary).tenths = 18 := by decide

end Backfill.Text
