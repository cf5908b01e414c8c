/-!
# Binary interchange floats

A float is held as its bit pattern, in a format given by two numbers: how many bits hold the
fraction and how many the exponent. All arithmetic on it is arithmetic on natural numbers, so every
statement about a float is one about its bits.

**What is decided here.** The classes of a pattern (`isNaN`, `isFinite`), the numeric comparison
(`numEq`, under which a NaN differs from itself and the two zeros agree), the exact value of a
finite pattern (`significand` times two to the `unit`), and `convert`, which carries a value from
one format to another and rounds to the nearest value there, a tie going to the even significand.
Widening is the case in which nothing is rounded.

Powers are `Nat.pow`, which is the same function under every reading of the power sign.
-/

namespace ArrayBridge

/-- A binary interchange format: the number of fraction bits and of exponent bits; one more bit
holds the sign. -/
structure BinaryFormat where
  fractionBits : Nat
  exponentBits : Nat
deriving DecidableEq

namespace BinaryFormat

/-- The number of bits of a pattern. -/
def width (f : BinaryFormat) : Nat := f.fractionBits + f.exponentBits + 1

/-- Half of the range of exponents: the exponent field of the value one. -/
def bias (f : BinaryFormat) : Nat := Nat.pow 2 (f.exponentBits - 1) - 1

/-- The exponent of two that the last bit of the smallest positive values stands for. -/
def minUnit (f : BinaryFormat) : Int := 1 - (f.bias : Int) - (f.fractionBits : Int)

/-- The magnitude of infinity: all exponent bits set, no fraction. Finite magnitudes lie below it
and those of the NaNs above. -/
def infinity (f : BinaryFormat) : Nat := (Nat.pow 2 f.exponentBits - 1) * Nat.pow 2 f.fractionBits

/-- Eleven exponent bits and fifty-two of fraction. -/
def double : BinaryFormat := ⟨52, 11⟩

/-- Eight exponent bits and twenty-three of fraction. -/
def single : BinaryFormat := ⟨23, 8⟩

end BinaryFormat

/-- A float of a format, as its bit pattern. Equality of this type is equality of patterns; for
the numeric comparison see `Binary.numEq`. -/
structure Binary (f : BinaryFormat) where
  bits : BitVec f.width
deriving DecidableEq

/-- The sixty-four bit floats, those a variant holds. -/
abbrev Binary64 := Binary .double

/-- The thirty-two bit floats. -/
abbrev Binary32 := Binary .single

/-- Divides by two to the `k` and rounds to the nearest natural number, a tie to the even one. -/
def roundShift (m k : Nat) : Nat :=
  let quotient := m / Nat.pow 2 k
  let rest := 2 * (m % Nat.pow 2 k)
  if Nat.pow 2 k < rest ∨ (rest = Nat.pow 2 k ∧ quotient % 2 = 1) then quotient + 1 else quotient

/-- The magnitude nearest to `m` times two to the `q`. The last bit of the result stands for
two to the `unit`; the significand is rounded at that bit, and a carry out of the fraction moves on
into the exponent field by itself. What lies beyond the largest finite value becomes infinity. -/
def BinaryFormat.roundMagnitude (f : BinaryFormat) (m : Nat) (q : Int) : Nat :=
  if m = 0 then 0
  else
    let unit := max f.minUnit (m.log2 + q - f.fractionBits)
    let significand :=
      if unit ≤ q then m * Nat.pow 2 (q - unit).toNat else roundShift m (unit - q).toNat
    min f.infinity ((unit - f.minUnit).toNat * Nat.pow 2 f.fractionBits + significand)

namespace Binary

variable {f g : BinaryFormat}

/-- Set for the negative values. -/
def sign (x : Binary f) : Bool := x.bits.msb

/-- The pattern without its sign bit. Magnitudes of values that are not NaN are ordered as their
absolute values are. -/
def magnitude (x : Binary f) : Nat := x.bits.toNat % Nat.pow 2 (f.width - 1)

/-- The pattern of a sign and a magnitude. -/
def ofParts (negative : Bool) (magnitude : Nat) : Binary f :=
  ⟨BitVec.ofNat _ ((if negative then Nat.pow 2 (f.width - 1) else 0) + magnitude)⟩

def exponentField (x : Binary f) : Nat := x.magnitude / Nat.pow 2 f.fractionBits

def fraction (x : Binary f) : Nat := x.magnitude % Nat.pow 2 f.fractionBits

def isNaN (x : Binary f) : Bool := decide (f.infinity < x.magnitude)

def isFinite (x : Binary f) : Bool := decide (x.magnitude < f.infinity)

def isInfinite (x : Binary f) : Bool := decide (x.magnitude = f.infinity)

/-- The whole significand: the leading one is not stored, save that the values of the lowest
exponent have none. -/
def significand (x : Binary f) : Nat :=
  if x.exponentField = 0 then x.fraction else Nat.pow 2 f.fractionBits + x.fraction

/-- The exponent of two that the last bit of the significand stands for. -/
def unit (x : Binary f) : Int :=
  (max x.exponentField 1 : Int) - (f.bias : Int) - (f.fractionBits : Int)

/-- The numeric comparison. A NaN is equal to nothing, itself included; the two zeros are equal;
else equal values have equal patterns. -/
def numEq (x y : Binary f) : Bool :=
  !x.isNaN && !y.isNaN && (x.bits == y.bits || (x.magnitude == 0 && y.magnitude == 0))

/-- The magnitude of the NaN that arithmetic produces. -/
def quietNaN (f : BinaryFormat) : Nat := f.infinity + Nat.pow 2 (f.fractionBits - 1)

/-- The NaN that arithmetic produces. -/
def nan (f : BinaryFormat) : Binary f := ofParts false (quietNaN f)

/-- The nearest value of another format. Infinities and the sign are kept, and every NaN becomes
the quiet one. -/
def convert (g : BinaryFormat) (x : Binary f) : Binary g :=
  ofParts x.sign <|
    if x.isNaN then quietNaN g
    else if x.isInfinite then g.infinity
    else g.roundMagnitude x.significand x.unit

end Binary

/-- The double with the value of a single; nothing is lost. -/
def Binary32.widen (x : Binary32) : Binary64 := x.convert .double

/-- The single nearest to a double. -/
def Binary64.narrow (x : Binary64) : Binary32 := x.convert .single

/-- The largest finite single. -/
def Binary32.largest : Binary32 := .ofParts false (BinaryFormat.single.infinity - 1)

/-- Whether a double is finite and yet larger in absolute value than every finite single. -/
def Binary64.overflowsSingle (x : Binary64) : Bool :=
  x.isFinite && decide (Binary32.largest.widen.magnitude < x.magnitude)

end ArrayBridge
