/-
This file gives numbers of JSON documents their values.
-/

import Backfill.Json.Token
import Backfill.Word

namespace Backfill.Json

/-- A significand of one word and a power of ten, with the digits that did not fit left out. -/
structure Scaled where
  significand : Nat
  exponent : Int
deriving DecidableEq, Repr

/-- Digits before the point; from the first that does not fit on, each only raises the exponent. -/
def Scaled.whole : Scaled → List Nat → Scaled
  | scaled, [] => scaled
  | scaled, digit :: rest =>
      let next := scaled.significand * 10 + digit
      if scaled.exponent = 0 ∧ next ≤ maxWord then Scaled.whole ⟨next, 0⟩ rest
      else Scaled.whole ⟨scaled.significand, scaled.exponent + 1⟩ rest

/-- Digits after the point; from the first that does not fit on, all are left out. -/
def Scaled.fraction : Scaled → List Nat → Scaled
  | scaled, [] => scaled
  | scaled, digit :: rest =>
      let next := scaled.significand * 10 + digit
      if next ≤ maxWord then Scaled.fraction ⟨next, scaled.exponent - 1⟩ rest
      else scaled

/-- The largest power of ten that is a double. -/
def maxPower : Nat := 308

/-- The double nearest to a power of ten. -/
def powerOfTen (exponent : Nat) : Float :=
  Float.ofScientific 1 false exponent

/-- A double times a power of ten in at most `steps` further divisions; none if it is too large. -/
def scaleDouble : Nat → Float → Int → Option Float
  | steps, value, exponent =>
      if exponent.natAbs ≤ maxPower then
        if 0 ≤ exponent then
          let scaled := value * powerOfTen exponent.natAbs
          if scaled.isInf then none else some scaled
        else some (value / powerOfTen exponent.natAbs)
      else if value == 0.0 then some value
      else if 0 ≤ exponent then none
      else
        match steps with
        | 0 => some 0.0
        | steps + 1 => scaleDouble steps (value / powerOfTen maxPower) (exponent + maxPower)

/-- The number that digits write in base ten. -/
def natOfDigits (digits : List Nat) : Nat :=
  digits.foldl (fun value digit => value * 10 + digit) 0

/-- The exponent that a number states. -/
def NumberText.statedExponent (written : NumberText) : Int :=
  match written.exponent with
  | none => 0
  | some (true, digits) => -(natOfDigits digits : Int)
  | some (false, digits) => natOfDigits digits

/-- The double that a number stands for. -/
def NumberText.double (written : NumberText) : Number :=
  let scaled := (Scaled.whole ⟨0, 0⟩ written.whole).fraction (written.fraction.getD [])
  let start := (UInt64.ofNat scaled.significand).toFloat
  match scaleDouble 4 start (scaled.exponent + written.statedExponent) with
  | none => .outOfRange
  | some value => .double (if written.negative then -value else value)

/-- A number without point and exponent that fits a signed or unsigned word is whole; a negative
zero is not. -/
def NumberText.value (written : NumberText) : Number :=
  if written.fraction.isSome || written.exponent.isSome then written.double
  else
    let whole := natOfDigits written.whole
    if written.negative then
      if whole = 0 ∨ maxSigned + 1 < whole then written.double else .integer (-(whole : Int))
    else if whole ≤ maxWord then .integer whole
    else written.double

end Backfill.Json
