/-
This file writes a double as the shortest decimal that reads back as the same double.
-/

namespace Backfill.Text

/-- A finite double without its sign is a whole number times a power of two. -/
structure Binary where
  significand : Nat
  exponent : Int
  /-- Whether the significand is the least of its exponent, so that the neighbour below is at half
  the distance. -/
  lowest : Bool
deriving DecidableEq, Repr

/-- The parts of the double with these bits. -/
def Binary.ofBits (bits : Nat) : Binary :=
  let fraction : Nat := bits % Nat.pow 2 52
  let field : Nat := bits / Nat.pow 2 52 % Nat.pow 2 11
  if field = 0 then ⟨fraction, -1074, false⟩
  else ⟨Nat.pow 2 52 + fraction, (field : Int) - 1075, decide (fraction = 0 ∧ field ≠ 1)⟩

/-- A decimal is a whole number times a power of ten. -/
structure Decimal where
  digits : Nat
  exponent : Int
deriving DecidableEq, Repr

/-- The numbers that round to a double, in quarters of its last place over a common scale: its
value, the two ends, and whether the ends belong to it. -/
structure Rounding where
  value : Nat
  lower : Nat
  upper : Nat
  closed : Bool
  scale : Nat

/-- The rounding interval of a double. -/
def Binary.rounding (binary : Binary) : Rounding :=
  let power := Nat.pow 2 binary.exponent.toNat
  let lower := if binary.lowest then 1 else 2
  { value := 4 * binary.significand * power
    lower := (4 * binary.significand - lower) * power
    upper := (4 * binary.significand + 2) * power
    closed := decide (binary.significand % 2 = 0)
    scale := 4 * Nat.pow 2 (-binary.exponent).toNat }

/-- Whether `digits * 10 ^ exponent` lies in the interval. -/
def Rounding.holds (rounding : Rounding) (digits : Nat) (exponent : Int) : Bool :=
  let scaled := digits * Nat.pow 10 exponent.toNat * rounding.scale
  let unit := Nat.pow 10 (-exponent).toNat
  if rounding.closed then rounding.lower * unit ≤ scaled && scaled ≤ rounding.upper * unit
  else rounding.lower * unit < scaled && scaled < rounding.upper * unit

/-- The nearer point of the grid of step `10 ^ exponent` that lies in the interval, or the even one
at the same distance. -/
def Rounding.onGrid (rounding : Rounding) (exponent : Int) : Option Nat :=
  let unit := rounding.scale * Nat.pow 10 exponent.toNat
  let value := rounding.value * Nat.pow 10 (-exponent).toNat
  let below := value / unit
  let above := below + 1
  let fitsBelow := rounding.holds below exponent
  let fitsAbove := rounding.holds above exponent
  if fitsBelow && fitsAbove then
    let twice := 2 * (value % unit)
    if twice < unit then some below
    else if unit < twice then some above
    else if below % 2 = 0 then some below else some above
  else if fitsBelow then some below
  else if fitsAbove then some above
  else none

/-- The first grid with a point in the interval, from coarse to fine. -/
def Rounding.search (rounding : Rounding) : Nat → Int → Decimal
  | 0, exponent => ⟨(rounding.onGrid exponent).getD 0, exponent⟩
  | steps + 1, exponent =>
      match rounding.onGrid exponent with
      | some digits => if digits = 0 then rounding.search steps (exponent - 1) else ⟨digits, exponent⟩
      | none => rounding.search steps (exponent - 1)

/-- The shortest decimal of a double that is not zero, on the first of the ever finer grids that has
one. -/
def Binary.shortest (binary : Binary) : Decimal :=
  let places : Int := (Nat.log2 binary.significand : Int) + binary.exponent
  let coarse : Int := places * 30103 / 100000 + 1
  binary.rounding.search 20 coarse

/-- Digits without trailing zeros; each zero removed raises the exponent. -/
def Decimal.trimZeros : Nat → Decimal → Decimal
  | 0, decimal => decimal
  | steps + 1, decimal =>
      if decimal.digits ≠ 0 ∧ decimal.digits % 10 = 0 then
        trimZeros steps ⟨decimal.digits / 10, decimal.exponent + 1⟩
      else decimal

/-- A decimal whose leading digit has an exponent from −5 to 15 is written by places with a point;
any other with one digit before the point and a signed exponent. -/
def Decimal.text (decimal : Decimal) : String :=
  let digits := toString decimal.digits
  let leading : Int := decimal.exponent + digits.length - 1
  if -5 ≤ leading ∧ leading ≤ 15 then
    if 0 ≤ decimal.exponent then
      digits ++ String.ofList (List.replicate decimal.exponent.toNat '0') ++ ".0"
    else if 0 ≤ leading then
      let whole := leading.toNat + 1
      String.ofList (digits.toList.take whole) ++ "." ++ String.ofList (digits.toList.drop whole)
    else "0." ++ String.ofList (List.replicate (-leading - 1).toNat '0') ++ digits
  else
    let fraction := String.ofList (digits.toList.drop 1)
    let mantissa := String.ofList (digits.toList.take 1) ++
      if fraction.isEmpty then "" else "." ++ fraction
    mantissa ++ (if leading < 0 then "e-" else "e+") ++ toString leading.natAbs

/-- The text of a double; a whole value keeps `.0`. -/
def doubleText (value : Float) : String :=
  if value.isNaN then "NaN"
  else
    let bits := value.toBits.toNat
    let sign := if bits / Nat.pow 2 63 = 1 then "-" else ""
    let magnitude := bits % Nat.pow 2 63
    if value.isInf then sign ++ "inf"
    else if magnitude = 0 then sign ++ "0.0"
    else sign ++ ((Binary.ofBits magnitude).shortest.trimZeros 20).text

end Backfill.Text
