import ArrayBridge.Proofs.Number.Conversion
import Mathlib.Algebra.Order.Field.Power
import Mathlib.Tactic.Positivity
import Mathlib.Tactic.Ring

/-!
# Values of floats

The number that a finite pattern stands for (`Binary.value`), and what the conversions do to it.
Two patterns of one format have the same absolute value only if they have the same magnitude
(`magnitude_eq_of_abs_value_eq`), so a value has one pattern but for the sign of zero, and
magnitudes are ordered as absolute values are (`abs_value_lt_iff`).

**Widening keeps the value** (`Binary32.value_widen`). Hence a double that has the value of some
single is the widening of a single, and narrowing it loses nothing (`Binary64.widen_narrow`).

**Narrowing makes no infinity** of a finite double that is not larger than the largest single
(`Binary64.isFinite_narrow`): rounding is monotone, and the bound is itself a single.
-/

namespace ArrayBridge

/-- Rounding at a bit stays below what is a multiple of that bit. -/
theorem roundShift_le {m k n : Nat} (h : m ≤ n * 2 ^ k) : roundShift m k ≤ n := by
  have pos : 0 < 2 ^ k := Nat.two_pow_pos k
  have quotient : m / 2 ^ k ≤ n := Nat.div_le_of_le_mul (by rwa [Nat.mul_comm])
  rw [roundShift_eq]
  split
  · rename_i up
    by_contra above
    -- the quotient would be the bound itself, and then nothing is left to round up for
    have whole : m / 2 ^ k = n := by omega
    have parts := Nat.div_add_mod m (2 ^ k)
    rw [whole, Nat.mul_comm] at parts
    have rest : m % 2 ^ k = 0 := by omega
    rw [rest] at up
    omega
  · exact quotient

namespace Binary

variable {f : BinaryFormat} {x y : Binary f}

/-- **The number that a finite pattern stands for.** -/
def value (x : Binary f) : ℚ := (if x.sign then -1 else 1) * (x.significand * 2 ^ x.unit)

theorem abs_value (x : Binary f) : |x.value| = x.significand * 2 ^ x.unit := by
  have nonneg : (0 : ℚ) ≤ x.significand * 2 ^ x.unit := by positivity
  unfold value
  split
  · rw [neg_one_mul, abs_neg, abs_of_nonneg nonneg]
  · rw [one_mul, abs_of_nonneg nonneg]

/-- Of two multiples of powers of two that are equal, the one of the lower power has the larger
factor. -/
theorem eq_mul_of_unit_le {m n : Nat} {u v : Int} (le : u ≤ v)
    (h : (m : ℚ) * 2 ^ u = n * 2 ^ v) : m = n * 2 ^ (v - u).toNat := by
  have split : (2 : ℚ) ^ v = 2 ^ (v - u).toNat * 2 ^ u := by
    rw [← zpow_natCast, ← zpow_add₀ (by norm_num)]
    congr 1
    omega
  rw [split, ← mul_assoc] at h
  have pos : (2 : ℚ) ^ u ≠ 0 := by positivity
  exact_mod_cast mul_right_cancel₀ pos h

/-- Of two patterns with one absolute value neither has the larger unit: its leading one would be in
place, and the significand of the other would have to be twice as large. -/
theorem unit_le_of_abs_value_eq (h : |x.value| = |y.value|) : y.unit ≤ x.unit := by
  by_contra lower
  rw [abs_value, abs_value] at h
  have larger := eq_mul_of_unit_le (by omega) h
  have normal : 2 ^ f.fractionBits ≤ y.significand := by
    rcases y.unit_cases.1 with lowest | normal
    · have := x.unit_cases.2
      omega
    · exact normal
  have twice : 2 ≤ 2 ^ (y.unit - x.unit).toNat :=
    Nat.le_self_pow (n := (y.unit - x.unit).toNat) (by omega) 2
  have bound := x.significand_lt
  rw [larger, Nat.pow_succ] at bound
  have := Nat.mul_le_mul normal twice
  omega

/-- **One absolute value, one magnitude.** -/
theorem magnitude_eq_of_abs_value_eq (h : |x.value| = |y.value|) : x.magnitude = y.magnitude := by
  have unit : x.unit = y.unit :=
    Int.le_antisymm (unit_le_of_abs_value_eq h.symm) (unit_le_of_abs_value_eq h)
  have significand : x.significand = y.significand := by
    rw [abs_value, abs_value, unit] at h
    have same := eq_mul_of_unit_le (Int.le_refl _) h
    rwa [Int.sub_self, Int.toNat_zero, Nat.pow_zero, Nat.mul_one] at same
  rw [magnitude_eq, magnitude_eq, unit, significand]

/-- A pattern is known by its sign and its magnitude. -/
theorem eq_of_parts (sign : x.sign = y.sign) (magnitude : x.magnitude = y.magnitude) : x = y := by
  rw [← ofParts_self x, ← ofParts_self y, sign, magnitude]

/-- Significand and unit are told by the magnitude alone. -/
theorem parts_congr (h : x.magnitude = y.magnitude) :
    x.significand = y.significand ∧ x.unit = y.unit := by
  unfold significand unit exponentField fraction
  rw [h]
  exact ⟨rfl, rfl⟩

/-- **Magnitudes are ordered as absolute values are.** -/
theorem abs_value_lt_of_magnitude_lt (h : x.magnitude < y.magnitude) : |x.value| < |y.value| := by
  obtain ⟨place, low⟩ := x.unit_cases
  obtain ⟨place', low'⟩ := y.unit_cases
  have bound := x.significand_lt
  rw [Nat.pow_succ] at bound
  rw [magnitude_eq, magnitude_eq] at h
  rw [abs_value, abs_value]
  obtain ⟨u, hu⟩ := Int.eq_ofNat_of_zero_le (Int.sub_nonneg_of_le low)
  obtain ⟨v, hv⟩ := Int.eq_ofNat_of_zero_le (Int.sub_nonneg_of_le low')
  rw [hu, hv, Int.toNat_natCast, Int.toNat_natCast] at h
  have pos : (0 : ℚ) < 2 ^ x.unit := by positivity
  rcases Nat.lt_trichotomy u v with lower | same | higher
  · -- the leading one of the larger is in place, one unit or more above
    have normal : 2 ^ f.fractionBits ≤ y.significand := by
      rcases place' with lowest | normal
      · omega
      · exact normal
    have twice : 2 * (2 : ℚ) ^ x.unit ≤ 2 ^ y.unit := by
      rw [← zpow_one_add₀ (by norm_num)]
      exact zpow_le_zpow_right₀ (by norm_num) (by omega)
    have normal' : (2 : ℚ) ^ f.fractionBits ≤ y.significand := by exact_mod_cast normal
    have bound' : (x.significand : ℚ) < 2 ^ f.fractionBits * 2 := by exact_mod_cast bound
    calc (x.significand : ℚ) * 2 ^ x.unit < 2 ^ f.fractionBits * 2 * 2 ^ x.unit :=
          mul_lt_mul_of_pos_right bound' pos
      _ = 2 ^ f.fractionBits * (2 * 2 ^ x.unit) := mul_assoc _ _ _
      _ ≤ y.significand * 2 ^ y.unit := by gcongr
  · subst same
    have unit : x.unit = y.unit := by omega
    have less : (x.significand : ℚ) < y.significand := by exact_mod_cast Nat.lt_of_add_lt_add_left h
    rw [← unit]
    exact mul_lt_mul_of_pos_right less pos
  · -- one unit higher and with its leading one in place the first could not be smaller
    exfalso
    have normal : 2 ^ f.fractionBits ≤ x.significand := by
      rcases place with lowest | normal
      · omega
      · exact normal
    have bound' := y.significand_lt
    rw [Nat.pow_succ] at bound'
    have above := Nat.mul_le_mul_right (2 ^ f.fractionBits) (Nat.succ_le_of_lt higher)
    rw [Nat.succ_mul] at above
    omega

theorem abs_value_lt_iff : |x.value| < |y.value| ↔ x.magnitude < y.magnitude := by
  refine ⟨fun less => ?_, abs_value_lt_of_magnitude_lt⟩
  rcases Nat.lt_trichotomy x.magnitude y.magnitude with lower | same | higher
  · exact lower
  · obtain ⟨significand, unit⟩ := parts_congr same
    rw [abs_value, abs_value, significand, unit] at less
    exact absurd less (lt_irrefl _)
  · exact absurd less (lt_asymm (abs_value_lt_of_magnitude_lt higher))

end Binary

namespace Binary32

open Binary

variable {x y : Binary32}

/-- **Widening keeps the value.** -/
theorem value_widen (finite : x.isFinite = true) : x.widen.value = x.value := by
  have sign : x.widen.sign = x.sign := (magnitude_widen (classes_of_finite finite).1).2
  unfold value
  rw [sign]
  congr 1
  by_cases zero : x.significand = 0
  · rw [significand_widen_zero finite zero, zero, Nat.cast_zero, zero_mul, zero_mul]
  · obtain ⟨significand, unit⟩ := parts_widen finite zero
    rw [significand, unit, Nat.cast_mul, Nat.cast_pow, Nat.cast_ofNat, mul_assoc, ← zpow_natCast,
      ← zpow_add₀ (by norm_num), add_sub_cancel]

/-- Of the magnitude of what is widened only the magnitude of the single matters. -/
theorem magnitude_widen_congr (finite : x.isFinite = true) (same : y.magnitude = x.magnitude) :
    y.isFinite = true ∧ y.widen.magnitude = x.widen.magnitude := by
  have finite' : y.isFinite = true := by
    unfold isFinite
    rw [same]
    exact finite
  obtain ⟨significand, unit⟩ := parts_congr same
  rw [magnitude_widen_of_finite finite, magnitude_widen_of_finite finite', significand, unit]
  exact ⟨finite', rfl⟩

end Binary32

namespace Binary64

open Binary

variable {x : Binary64}

/-- **Whether the double is exactly a single**: infinite, or the value of a finite single. -/
def IsSingle (x : Binary64) : Prop :=
  x.isInfinite = true ∨
    (x.isFinite = true ∧ ∃ y : Binary32, y.isFinite = true ∧ y.value = x.value)

/-- A double that is exactly a single is the widening of one. -/
theorem exists_widen_eq (h : x.IsSingle) : ∃ y : Binary32, y.isNaN = false ∧ y.widen = x := by
  rcases h with infinite | ⟨finite, y, finite', same⟩
  · have bound : BinaryFormat.single.infinity < 2 ^ (BinaryFormat.single.width - 1) := by decide
    let y : Binary32 := ofParts x.sign BinaryFormat.single.infinity
    have magnitude : y.magnitude = BinaryFormat.single.infinity := magnitude_ofParts bound
    have notNaN : y.isNaN = false := by
      rw [isNaN, magnitude]
      decide
    have infinite' : y.isInfinite = true := by
      rw [isInfinite, magnitude]
      decide
    obtain ⟨widened, sign⟩ := Binary32.magnitude_widen notNaN
    refine ⟨y, notNaN, eq_of_parts (sign.trans (sign_ofParts bound)) ?_⟩
    rw [widened, if_pos infinite']
    exact (of_decide_eq_true infinite).symm
  -- the single may be zero of the other sign, so it is taken with the sign of the double
  · have bound : y.magnitude < 2 ^ (BinaryFormat.single.width - 1) :=
      Nat.mod_lt _ (Nat.two_pow_pos _)
    let z : Binary32 := ofParts x.sign y.magnitude
    obtain ⟨finite'', widened⟩ :=
      Binary32.magnitude_widen_congr finite' (y := z) (magnitude_ofParts bound)
    have notNaN := (classes_of_finite finite'').1
    have sign := (Binary32.magnitude_widen notNaN).2.trans (sign_ofParts bound)
    refine ⟨z, notNaN, eq_of_parts sign (widened.trans (magnitude_eq_of_abs_value_eq ?_))⟩
    rw [Binary32.value_widen finite', same]

/-- **Nothing is lost** of a double that is exactly a single. -/
theorem widen_narrow (h : x.IsSingle) : x.narrow.widen = x := by
  obtain ⟨y, notNaN, rfl⟩ := exists_widen_eq h
  rw [Binary32.narrow_widen notNaN]

/-- **When a double overflows a single**: it is finite, and larger than the largest finite one. -/
theorem overflowsSingle_iff :
    x.overflowsSingle = true ↔ x.isFinite = true ∧ Binary32.largest.value < |x.value| := by
  have finite : Binary32.largest.isFinite = true := by decide
  have positive : Binary32.largest.value = |Binary32.largest.widen.value| := by
    rw [Binary32.value_widen finite, abs_value]
    exact one_mul _
  rw [positive, abs_value_lt_iff]
  simp [overflowsSingle]

/-- A significand that is rounded at a bit no lower than the last of a single fits into one, or is
the next power of two. -/
theorem rounded_le {m : Nat} {q u : Int} (le : m.log2 + q - 23 ≤ u) :
    (if u ≤ q then m * 2 ^ (q - u).toNat else roundShift m (u - q).toNat) ≤ 2 ^ 24 := by
  have below : m < 2 ^ (m.log2 + 1) := Nat.lt_log2_self
  split
  · calc m * 2 ^ (q - u).toNat ≤ 2 ^ (m.log2 + 1) * 2 ^ (q - u).toNat :=
          Nat.mul_le_mul_right _ (Nat.le_of_lt below)
      _ = 2 ^ (m.log2 + 1 + (q - u).toNat) := (Nat.pow_add _ _ _).symm
      _ ≤ 2 ^ 24 := Nat.pow_le_pow_right (by decide) (by omega)
  · apply roundShift_le
    rw [← Nat.pow_add]
    exact Nat.le_of_lt (Nat.lt_of_lt_of_le below (Nat.pow_le_pow_right (by decide) (by omega)))

/-- **A double that is not larger than the largest single** is rounded to a finite magnitude. -/
theorem roundMagnitude_lt (fits : x.magnitude ≤ Binary32.largest.widen.magnitude) :
    BinaryFormat.single.roundMagnitude x.significand x.unit < BinaryFormat.single.infinity := by
  have infinity : BinaryFormat.single.infinity = 255 * 2 ^ 23 := by decide
  have upper : x.significand < 2 ^ 53 := x.significand_lt
  obtain ⟨place, low⟩ := x.unit_cases
  have place : x.unit = -1074 ∨ 2 ^ 52 ≤ x.significand := place
  have low : -1074 ≤ x.unit := low
  have magnitude : x.magnitude = (x.unit - (-1074)).toNat * 2 ^ 52 + x.significand :=
    magnitude_eq x
  rw [Binary32.magnitude_largest, magnitude] at fits
  unfold BinaryFormat.roundMagnitude
  by_cases zero : x.significand = 0
  · rw [if_pos zero, infinity]
    decide
  rw [if_neg zero]
  have log : x.significand.log2 < 53 := (Nat.log2_lt zero).mpr upper
  apply Nat.lt_of_le_of_lt (Nat.min_le_right _ _)
  rw [infinity]
  show ((max (-149 : Int) (x.significand.log2 + x.unit - 23)) - (-149)).toNat * 2 ^ 23 +
    (if max (-149 : Int) (x.significand.log2 + x.unit - 23) ≤ x.unit then
      x.significand * 2 ^ (x.unit - max (-149 : Int) (x.significand.log2 + x.unit - 23)).toNat
    else roundShift x.significand
      (max (-149 : Int) (x.significand.log2 + x.unit - 23) - x.unit).toNat) < _
  generalize hu : max (-149 : Int) (x.significand.log2 + x.unit - 23) = unit
  by_cases small : x.unit ≤ 74
  · have rounded := rounded_le (m := x.significand) (q := x.unit) (u := unit) (by omega)
    have exponent : (unit - -149).toNat ≤ 252 := by omega
    omega
  -- in the binade of the largest single a carry out of the significand would be too much
  · have normal : 2 ^ 52 ≤ x.significand := by omega
    have top : x.unit = 75 := by omega
    have log : x.significand.log2 = 52 := (Nat.log2_eq_iff zero).mpr ⟨normal, upper⟩
    have unit104 : unit = 104 := by omega
    have rounded : roundShift x.significand 29 ≤ 2 ^ 24 - 1 := roundShift_le (by omega)
    rw [unit104, top, if_neg (by decide)]
    show 253 * 2 ^ 23 + roundShift x.significand 29 < _
    omega

/-- **Narrowing makes no infinity** of what is finite and not too large. -/
theorem isFinite_narrow (finite : x.isFinite = true) (fits : x.overflowsSingle = false) :
    x.narrow.isFinite = true := by
  obtain ⟨notNaN, notInfinite⟩ := classes_of_finite finite
  unfold overflowsSingle at fits
  rw [finite, Bool.true_and, decide_eq_false_iff_not, Nat.not_lt] at fits
  have below := roundMagnitude_lt fits
  have bound : BinaryFormat.single.infinity < 2 ^ (BinaryFormat.single.width - 1) := by decide
  unfold narrow convert
  rw [notNaN, notInfinite, if_neg Bool.false_ne_true, if_neg Bool.false_ne_true, isFinite,
    magnitude_ofParts (Nat.lt_trans below bound)]
  exact decide_eq_true below

end Binary64

end ArrayBridge
