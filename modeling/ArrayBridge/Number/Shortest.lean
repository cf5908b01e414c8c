import ArrayBridge.Number.Binary

/-!
# The shortest decimal of a float

The text of a float is the decimal with the fewest digits among those nearer to it than to any other
float, and of several with that number of digits the one nearest to it.

**How it is found.** The decimals that read back as the float fill an interval around it, half a
unit to either side (a quarter below a power of two), with its ends when the significand is even. If
a grid of powers of ten has a point in that interval, then one of the two grid points next to the
float lies in it; so the grids are tried from coarse to fine, two points each, in exact arithmetic
on natural numbers.
-/

namespace ArrayBridge

/-- A decimal: `digits` times ten to the `exponent`. -/
structure Decimal where
  digits : Nat
  exponent : Int
deriving DecidableEq

namespace Decimal

/-- Positional notation, never with an exponent; a whole number has no point. -/
def text (d : Decimal) : String :=
  let digits := Nat.toDigits 10 d.digits
  if 0 ≤ d.exponent then
    String.ofList (digits ++ List.replicate d.exponent.toNat '0')
  else
    let places := (-d.exponent).toNat
    if places < digits.length then
      let whole := digits.length - places
      String.ofList (digits.take whole ++ '.' :: digits.drop whole)
    else
      String.ofList ('0' :: '.' :: (List.replicate (places - digits.length) '0' ++ digits))

end Decimal

/-- A positive value with the interval that reads back as it: all three numbers in quarters of
`2 ^ unit`, and whether the ends belong to the interval. -/
structure RoundingInterval where
  low : Nat
  value : Nat
  high : Nat
  unit : Int
  closed : Bool

namespace RoundingInterval

/-- The point of the grid of multiples of ten to the `p` that lies in the interval, nearest to the
value. Of two points equally near, the upper one. -/
def gridPoint? (r : RoundingInterval) (p : Int) : Option Nat :=
  -- One quarter unit is `above / below` grid steps.
  let above := Nat.pow 2 (r.unit - 2).toNat * Nat.pow 10 (-p).toNat
  let below := Nat.pow 2 (2 - r.unit).toNat * Nat.pow 10 p.toNat
  let holds (d : Nat) : Bool :=
    if r.closed then r.low * above ≤ d * below && d * below ≤ r.high * above
    else r.low * above < d * below && d * below < r.high * above
  let floor := r.value * above / below
  match holds floor, holds (floor + 1) with
  | true, true =>
    if r.value * above - floor * below < (floor + 1) * below - r.value * above then some floor
    else some (floor + 1)
  | true, false => some floor
  | false, true => some (floor + 1)
  | false, false => none

/-- The point of the coarsest grid that has one, tried from the exponent `top` down. -/
def coarsest (r : RoundingInterval) (top : Int) : (grids : Nat) → Decimal
  | 0 => ⟨0, 0⟩
  | grids + 1 =>
    match r.gridPoint? top with
    | some digits => ⟨digits, top⟩
    | none => r.coarsest (top - 1) grids

end RoundingInterval

namespace Binary

variable {f : BinaryFormat}

/-- The interval around a finite value other than zero. Below a power of two the neighbour is only
half as far. -/
def roundingInterval (x : Binary f) : RoundingInterval :=
  let m := x.significand
  { low := if x.fraction = 0 ∧ 1 < x.exponentField then 4 * m - 1 else 4 * m - 2
    value := 4 * m
    high := 4 * m + 2
    unit := x.unit
    closed := m % 2 = 0 }

/-- The shortest decimal of the absolute value of a finite value other than zero. The first grid is
as coarse as the value or coarser by at most two places, and one more digit than the fraction has
bits is always enough. -/
def shortest (x : Binary f) : Decimal :=
  let top := ((x.significand.log2 : Int) + x.unit + 1) * 30103 / 100000 + 1
  x.roundingInterval.coarsest top (f.fractionBits + 4)

/-- The text of a float: a sign, and the shortest decimal in positional notation. -/
def text (x : Binary f) : String :=
  if x.isNaN then "NaN"
  else
    let absolute :=
      if x.isInfinite then "inf"
      else if x.magnitude = 0 then "0"
      else x.shortest.text
    if x.sign then "-" ++ absolute else absolute

end Binary

end ArrayBridge
