import ArrayBridge.Number.Binary
import Mathlib.Algebra.Group.Nat.Defs

/-!
# Singles in doubles

Widening a single loses nothing: the double is never too large for a single, and narrowing it gives
the single back (`narrow_widen`). Only the bits inside a NaN are lost, so what comes back of a NaN
is a NaN.

**How it goes.** A magnitude is a unit and a significand (`magnitude_eq`), and a significand with
its leading one in place is read back from its magnitude as it was put in
(`significand_of_magnitude`). Widening moves the leading one to its place, which multiplies the
significand by a power of two and lowers the unit; narrowing divides by the same power, so that
rounding has nothing to do (`roundShift_mul`).
-/

namespace ArrayBridge

theorem roundShift_eq (m k : Nat) :
    roundShift m k =
      if 2 ^ k < 2 * (m % 2 ^ k) ∨ (2 * (m % 2 ^ k) = 2 ^ k ∧ m / 2 ^ k % 2 = 1) then m / 2 ^ k + 1
      else m / 2 ^ k := rfl

/-- A multiple of the power that is divided by is not rounded. -/
theorem roundShift_mul (m k : Nat) : roundShift (m * 2 ^ k) k = m := by
  have pos : 0 < 2 ^ k := Nat.two_pow_pos k
  rw [roundShift_eq, Nat.mul_div_cancel m pos, Nat.mul_mod_left, Nat.mul_zero]
  rw [if_neg]
  rintro (h | ⟨h, _⟩)
  · exact Nat.not_lt_zero _ h
  · exact absurd h (Nat.ne_of_lt pos)

theorem roundMagnitude_zero (f : BinaryFormat) (q : Int) : f.roundMagnitude 0 q = 0 := if_pos rfl

namespace Binary

variable {f : BinaryFormat}

/-! ## In powers of two -/

theorem bits_ofParts (negative : Bool) (magnitude : Nat) :
    (ofParts (f := f) negative magnitude).bits =
      BitVec.ofNat f.width ((if negative then 2 ^ (f.width - 1) else 0) + magnitude) := rfl

theorem magnitude_mod (x : Binary f) : x.magnitude = x.bits.toNat % 2 ^ (f.width - 1) := rfl

theorem exponentField_div (x : Binary f) :
    x.exponentField = x.magnitude / 2 ^ f.fractionBits := rfl

theorem fraction_mod (x : Binary f) : x.fraction = x.magnitude % 2 ^ f.fractionBits := rfl

theorem significand_ite (x : Binary f) :
    x.significand =
      if x.exponentField = 0 then x.fraction else 2 ^ f.fractionBits + x.fraction := rfl

/-! ## Parts -/

theorem two_pow_width (f : BinaryFormat) : 2 ^ f.width = 2 * 2 ^ (f.width - 1) := by
  have width : f.width = (f.width - 1) + 1 := by simp [BinaryFormat.width]
  rw [width, Nat.pow_succ, Nat.add_sub_cancel, Nat.mul_comm]

theorem toNat_ofParts {negative : Bool} {magnitude : Nat} (h : magnitude < 2 ^ (f.width - 1)) :
    (ofParts (f := f) negative magnitude).bits.toNat =
      (if negative then 2 ^ (f.width - 1) else 0) + magnitude := by
  rw [bits_ofParts, BitVec.toNat_ofNat]
  apply Nat.mod_eq_of_lt
  rw [two_pow_width]
  split <;> omega

theorem magnitude_ofParts {negative : Bool} {magnitude : Nat}
    (h : magnitude < 2 ^ (f.width - 1)) :
    (ofParts (f := f) negative magnitude).magnitude = magnitude := by
  rw [magnitude_mod, toNat_ofParts h]
  split
  · rw [Nat.add_mod_left, Nat.mod_eq_of_lt h]
  · rw [Nat.zero_add, Nat.mod_eq_of_lt h]

theorem sign_ofParts {negative : Bool} {magnitude : Nat} (h : magnitude < 2 ^ (f.width - 1)) :
    (ofParts (f := f) negative magnitude).sign = negative := by
  rw [sign, BitVec.msb_eq_decide, toNat_ofParts h]
  cases negative with
  | true => simp
  | false => simpa using h

/-- A pattern is its sign and its magnitude. -/
@[simp] theorem ofParts_self (x : Binary f) : ofParts x.sign x.magnitude = x := by
  have bound : x.magnitude < 2 ^ (f.width - 1) := Nat.mod_lt _ (Nat.two_pow_pos _)
  have whole : x.bits.toNat < 2 * 2 ^ (f.width - 1) :=
    Nat.lt_of_lt_of_eq x.bits.isLt (two_pow_width f)
  have same : (ofParts (f := f) x.sign x.magnitude).bits = x.bits := by
    apply BitVec.eq_of_toNat_eq
    rw [toNat_ofParts bound, sign, BitVec.msb_eq_decide, magnitude_mod]
    by_cases h : 2 ^ (f.width - 1) ≤ x.bits.toNat
    · rw [Nat.mod_eq_sub_mod h, Nat.mod_eq_of_lt (by omega)]
      simp only [h, decide_true, if_true]
      omega
    · rw [Nat.mod_eq_of_lt (Nat.not_le.mp h)]
      simp [h]
  cases x
  exact congrArg Binary.mk same

/-! ## Units and significands -/

theorem significand_lt (x : Binary f) : x.significand < 2 ^ (f.fractionBits + 1) := by
  have fraction : x.fraction < 2 ^ f.fractionBits := Nat.mod_lt _ (Nat.two_pow_pos _)
  rw [Nat.pow_succ, significand_ite]
  split <;> omega

/-- The unit is never below the lowest, and above it the leading one is in place. -/
theorem unit_cases (x : Binary f) :
    (x.unit = f.minUnit ∨ 2 ^ f.fractionBits ≤ x.significand) ∧ f.minUnit ≤ x.unit := by
  rw [significand_ite]
  unfold unit BinaryFormat.minUnit
  refine ⟨?_, by omega⟩
  by_cases h : x.exponentField = 0
  · left
    rw [h]
    rfl
  · right
    rw [if_neg h]
    exact Nat.le_add_right _ _

/-- **A magnitude is a unit and a significand.** -/
theorem magnitude_eq (x : Binary f) :
    x.magnitude = (x.unit - f.minUnit).toNat * 2 ^ f.fractionBits + x.significand := by
  have split : x.exponentField * 2 ^ f.fractionBits + x.fraction = x.magnitude := by
    rw [Nat.mul_comm]
    exact Nat.div_add_mod _ _
  rw [significand_ite]
  unfold unit BinaryFormat.minUnit
  by_cases h : x.exponentField = 0
  · rw [if_pos h, h]
    rw [h, Nat.zero_mul] at split
    have zero : ((max (0 : Nat) 1 : Int) - f.bias - f.fractionBits -
        (1 - f.bias - f.fractionBits)).toNat = 0 := by omega
    rw [zero, Nat.zero_mul]
    exact split.symm
  · rw [if_neg h]
    have less : ((max x.exponentField 1 : Int) - f.bias - f.fractionBits -
        (1 - f.bias - f.fractionBits)).toNat = x.exponentField - 1 := by omega
    rw [less, ← split, Nat.sub_mul, Nat.one_mul]
    have : 2 ^ f.fractionBits ≤ x.exponentField * 2 ^ f.fractionBits :=
      Nat.le_mul_of_pos_left _ (Nat.pos_of_ne_zero h)
    omega

/-- A significand with its leading one in place is read back. -/
theorem significand_of_magnitude {x : Binary f} {e m : Nat}
    (h : x.magnitude = e * 2 ^ f.fractionBits + m) (lower : 2 ^ f.fractionBits ≤ m)
    (upper : m < 2 ^ (f.fractionBits + 1)) :
    x.significand = m ∧ x.unit = f.minUnit + e := by
  have pos : 0 < 2 ^ f.fractionBits := Nat.two_pow_pos _
  rw [Nat.pow_succ] at upper
  have whole : x.magnitude = (e + 1) * 2 ^ f.fractionBits + (m - 2 ^ f.fractionBits) := by
    rw [h, Nat.add_mul, Nat.one_mul]
    omega
  have rest : m - 2 ^ f.fractionBits < 2 ^ f.fractionBits := by omega
  have field : x.exponentField = e + 1 := by
    rw [exponentField_div, whole, Nat.mul_comm, Nat.mul_add_div pos, Nat.div_eq_of_lt rest,
      Nat.add_zero]
  have fraction : x.fraction = m - 2 ^ f.fractionBits := by
    rw [fraction_mod, whole, Nat.mul_comm, Nat.mul_add_mod, Nat.mod_eq_of_lt rest]
  refine ⟨?_, ?_⟩
  · rw [significand_ite, field, if_neg (Nat.succ_ne_zero e), fraction]
    omega
  · rw [unit, field, BinaryFormat.minUnit]
    omega

/-- What is finite is no NaN and not infinite. -/
theorem classes_of_finite {x : Binary f} (finite : x.isFinite = true) :
    x.isNaN = false ∧ x.isInfinite = false := by
  simp only [isFinite, isNaN, isInfinite, decide_eq_true_eq, decide_eq_false_iff_not] at finite ⊢
  omega

end Binary

/-! ## From single to double and back -/

namespace Binary32

open Binary

variable {x : Binary32}

/-- The unit of a finite single. -/
theorem unit_le (finite : x.isFinite = true) : x.unit ≤ 104 := by
  have below : x.magnitude < 255 * 2 ^ 23 := of_decide_eq_true finite
  have field : x.exponentField ≤ 254 := by
    have : x.magnitude / 2 ^ 23 < 255 := (Nat.div_lt_iff_lt_mul (by decide)).mpr below
    exact Nat.le_of_lt_succ this
  show (max x.exponentField 1 : Int) - 127 - 23 ≤ 104
  omega

/-- How far the leading one is from its place in a double. -/
def gap (x : Binary32) : Nat := 52 - x.significand.log2

/-- The magnitude of the double that a finite single is widened to, if it is not zero: the leading
one has moved to its place. -/
theorem roundMagnitude_double (finite : x.isFinite = true) (nonzero : x.significand ≠ 0) :
    BinaryFormat.double.roundMagnitude x.significand x.unit =
      (x.unit - x.gap + 1074).toNat * 2 ^ 52 + x.significand * 2 ^ x.gap ∧
    2 ^ 52 ≤ x.significand * 2 ^ x.gap ∧ x.significand * 2 ^ x.gap < 2 ^ 53 ∧
    -149 ≤ x.unit ∧ x.gap ≤ 52 ∧ 29 ≤ x.gap := by
  have low : -149 ≤ x.unit := x.unit_cases.2
  have high := unit_le finite
  have upper : x.significand < 2 ^ 24 := x.significand_lt
  have log : x.significand.log2 < 24 := (Nat.log2_lt nonzero).mpr upper
  have gap : x.gap = 52 - x.significand.log2 := rfl
  have bounds : 2 ^ 52 ≤ x.significand * 2 ^ x.gap ∧ x.significand * 2 ^ x.gap < 2 ^ 53 := by
    have first := Nat.log2_self_le nonzero
    have last : x.significand < 2 ^ (x.significand.log2 + 1) := Nat.lt_log2_self
    have sum : x.significand.log2 + x.gap = 52 := by omega
    have sum' : x.significand.log2 + 1 + x.gap = 53 := by omega
    refine ⟨?_, ?_⟩
    · calc 2 ^ 52 = 2 ^ x.significand.log2 * 2 ^ x.gap := by rw [← Nat.pow_add, sum]
        _ ≤ x.significand * 2 ^ x.gap := Nat.mul_le_mul_right _ first
    · calc x.significand * 2 ^ x.gap < 2 ^ (x.significand.log2 + 1) * 2 ^ x.gap :=
          Nat.mul_lt_mul_of_pos_right last (Nat.two_pow_pos _)
        _ = 2 ^ 53 := by rw [← Nat.pow_add, sum']
  have unit : max BinaryFormat.double.minUnit
      ((x.significand.log2 : Int) + x.unit - BinaryFormat.double.fractionBits) =
        x.unit - x.gap := by
    show max (-1074 : Int) ((x.significand.log2 : Int) + x.unit - 52) = _
    omega
  refine ⟨?_, bounds.1, bounds.2, low, by omega, by omega⟩
  unfold BinaryFormat.roundMagnitude
  rw [if_neg nonzero]
  simp only [unit]
  rw [if_pos (by omega)]
  have shift : (x.unit - (x.unit - (x.gap : Int))).toNat = x.gap := by omega
  have place : x.unit - x.gap - BinaryFormat.double.minUnit = x.unit - x.gap + 1074 := by
    show _ - (-1074 : Int) = _
    omega
  rw [shift, place]
  apply Nat.min_eq_right
  have lower : (x.unit - x.gap + 1074).toNat ≤ 1149 := by omega
  have infinity : 1151 * 2 ^ 52 ≤ BinaryFormat.double.infinity := by decide
  have fits := bounds.2
  show (x.unit - x.gap + 1074).toNat * 2 ^ 52 + x.significand * 2 ^ x.gap ≤ _
  omega

/-- The magnitude of the single that the widened one is narrowed to. -/
theorem roundMagnitude_single (finite : x.isFinite = true) (nonzero : x.significand ≠ 0) :
    BinaryFormat.single.roundMagnitude (x.significand * 2 ^ x.gap) (x.unit - x.gap) =
      x.magnitude := by
  obtain ⟨_, lower, upper, low, gap, far⟩ := roundMagnitude_double finite nonzero
  have log : (x.significand * 2 ^ x.gap).log2 = 52 :=
    (Nat.log2_eq_iff (by omega)).mpr ⟨lower, upper⟩
  have high : x.significand < 2 ^ 24 := x.significand_lt
  have unit : max BinaryFormat.single.minUnit
      (((x.significand * 2 ^ x.gap).log2 : Int) + (x.unit - x.gap) -
        BinaryFormat.single.fractionBits) = x.unit := by
    rw [log]
    show max (-149 : Int) ((52 : Nat) + (x.unit - x.gap) - 23) = x.unit
    rcases x.unit_cases.1 with lowest | normal
    · have lowest : x.unit = -149 := lowest
      omega
    -- with the leading one in place the gap is what the formats differ by
    · have normal : 2 ^ 23 ≤ x.significand := normal
      have exact' : x.significand.log2 = 23 := (Nat.log2_eq_iff nonzero).mpr ⟨normal, high⟩
      have : x.gap = 29 := by rw [Binary32.gap, exact']
      omega
  have shift : (x.unit - (x.unit - (x.gap : Int))).toNat = x.gap := by omega
  unfold BinaryFormat.roundMagnitude
  rw [if_neg (by omega)]
  simp only [unit]
  rw [if_neg (by omega), shift, roundShift_mul]
  have below : x.magnitude ≤ BinaryFormat.single.infinity := Nat.le_of_lt (of_decide_eq_true finite)
  calc min BinaryFormat.single.infinity
        ((x.unit - BinaryFormat.single.minUnit).toNat * 2 ^ 23 + x.significand)
    _ = min BinaryFormat.single.infinity x.magnitude := congrArg _ (magnitude_eq x).symm
    _ = x.magnitude := Nat.min_eq_right below

/-! ### Widening -/

theorem isNaN_widen (h : x.isNaN = true) : x.widen = .ofParts x.sign (quietNaN .double) := by
  unfold widen convert
  rw [if_pos h]

/-- The magnitude of the double, for a single that is no NaN. -/
theorem magnitude_widen (h : x.isNaN = false) :
    x.widen.magnitude =
        (if x.isInfinite then BinaryFormat.double.infinity
        else BinaryFormat.double.roundMagnitude x.significand x.unit) ∧
      x.widen.sign = x.sign := by
  have bound : (if x.isInfinite then BinaryFormat.double.infinity
      else BinaryFormat.double.roundMagnitude x.significand x.unit) < 2 ^ 63 := by
    have infinity : BinaryFormat.double.infinity < 2 ^ 63 := by decide
    split
    · exact infinity
    · unfold BinaryFormat.roundMagnitude
      split
      · decide
      · exact Nat.lt_of_le_of_lt (Nat.min_le_left _ _) infinity
  unfold widen convert
  rw [if_neg (by simp [h])]
  exact ⟨magnitude_ofParts bound, sign_ofParts bound⟩

/-- A single is a NaN, infinite or finite. -/
theorem classes (x : Binary32) : x.isNaN = true ∨
    (x.isNaN = false ∧ x.isInfinite = true ∧ x.isFinite = false) ∨
    (x.isNaN = false ∧ x.isInfinite = false ∧ x.isFinite = true) := by
  unfold isNaN isInfinite isFinite
  rcases Nat.lt_trichotomy x.magnitude BinaryFormat.single.infinity with h | h | h
  · exact .inr (.inr ⟨by simp; omega, by simp; omega, by simpa using h⟩)
  · exact .inr (.inl ⟨by simp; omega, by simpa using h, by simp; omega⟩)
  · exact .inl (by simpa using h)

/-- The largest finite single as a double. -/
theorem magnitude_largest :
    Binary32.largest.widen.magnitude = 1149 * 2 ^ 52 + (2 ^ 24 - 1) * 2 ^ 29 := by
  decide +kernel

/-- No finite single is larger than the largest. -/
theorem magnitude_widen_le (h : x.isNaN = false) (finite : x.isFinite = true) :
    x.widen.magnitude ≤ Binary32.largest.widen.magnitude := by
  rw [(magnitude_widen h).1, (classes_of_finite finite).2, if_neg Bool.false_ne_true,
    magnitude_largest]
  by_cases zero : x.significand = 0
  · rw [zero, roundMagnitude_zero]
    exact Nat.zero_le _
  · obtain ⟨eq, lower, upper, low, gap, far⟩ := roundMagnitude_double finite zero
    have high := unit_le finite
    have significand : x.significand < 2 ^ 24 := x.significand_lt
    rw [eq]
    by_cases top : (x.unit - x.gap + 1074).toNat = 1149
    · have least : x.gap = 29 := by omega
      have most : x.significand ≤ 2 ^ 24 - 1 := Nat.le_pred_of_lt significand
      rw [top, least]
      exact Nat.add_le_add_left (Nat.mul_le_mul_right (2 ^ 29) most) (1149 * 2 ^ 52)
    · have lessUnit : (x.unit - x.gap + 1074).toNat ≤ 1148 := by omega
      omega

/-- **A widened single is never too large for a single.** -/
theorem not_overflowsSingle_widen (x : Binary32) : x.widen.overflowsSingle = false := by
  unfold Binary64.overflowsSingle
  rcases classes x with hn | ⟨hn, hi, _⟩ | ⟨hn, _, hf⟩
  · have bound : quietNaN .double < 2 ^ (BinaryFormat.double.width - 1) := by decide
    have infinite : x.widen.isFinite = false := by
      rw [isNaN_widen hn, isFinite, magnitude_ofParts bound]
      decide
    rw [infinite, Bool.false_and]
  · have infinite : x.widen.isFinite = false := by
      rw [isFinite, (magnitude_widen hn).1, if_pos hi]
      decide
    rw [infinite, Bool.false_and]
  · have below := magnitude_widen_le hn hf
    simp only [Bool.and_eq_false_iff, decide_eq_false_iff_not]
    exact .inr (Nat.not_lt.mpr below)

/-- A NaN stays one on the way to a double and back. -/
theorem isNaN_narrow_widen (h : x.isNaN = true) : x.widen.narrow.isNaN = true := by
  have double : quietNaN .double < 2 ^ (BinaryFormat.double.width - 1) := by decide
  have single : quietNaN .single < 2 ^ (BinaryFormat.single.width - 1) := by decide
  have nan : x.widen.isNaN = true := by
    rw [isNaN_widen h, isNaN, magnitude_ofParts double]
    decide
  unfold Binary64.narrow convert
  rw [if_pos nan, isNaN, magnitude_ofParts single]
  decide

/-- The magnitude of the double that a finite single is widened to. -/
theorem magnitude_widen_of_finite (finite : x.isFinite = true) :
    x.widen.magnitude = BinaryFormat.double.roundMagnitude x.significand x.unit := by
  obtain ⟨notNaN, notInfinite⟩ := classes_of_finite finite
  rw [(magnitude_widen notNaN).1, notInfinite, if_neg Bool.false_ne_true]

/-- What widening does to the parts of a finite single: the leading one moves to its place. -/
theorem parts_widen (finite : x.isFinite = true) (nonzero : x.significand ≠ 0) :
    x.widen.significand = x.significand * 2 ^ x.gap ∧ x.widen.unit = x.unit - x.gap := by
  obtain ⟨eq, lower, upper, low, gap, far⟩ := roundMagnitude_double finite nonzero
  obtain ⟨significand, unit⟩ :=
    significand_of_magnitude ((magnitude_widen_of_finite finite).trans eq) lower upper
  refine ⟨significand, ?_⟩
  rw [unit]
  show (-1074 : Int) + _ = _
  omega

/-- Zero is widened to zero. -/
theorem significand_widen_zero (finite : x.isFinite = true) (zero : x.significand = 0) :
    x.widen.significand = 0 := by
  have magnitude := magnitude_widen_of_finite finite
  rw [zero, roundMagnitude_zero] at magnitude
  have field : x.widen.exponentField = 0 := by rw [exponentField, magnitude, Nat.zero_div]
  have fraction : x.widen.fraction = 0 := by rw [Binary.fraction, magnitude, Nat.zero_mod]
  rw [significand, if_pos field, fraction]

/-- A widened finite single is finite. -/
theorem isFinite_widen (finite : x.isFinite = true) : x.widen.isFinite = true := by
  have below := magnitude_widen_le (classes_of_finite finite).1 finite
  have largest : Binary32.largest.widen.magnitude < BinaryFormat.double.infinity := by
    rw [magnitude_largest]
    decide
  exact decide_eq_true (Nat.lt_of_le_of_lt below largest)

/-- **Widening loses nothing**: narrowed again, the double is the single it came from. -/
theorem narrow_widen (h : x.isNaN = false) : x.widen.narrow = x := by
  obtain ⟨magnitude, sign⟩ := magnitude_widen h
  suffices same : (if x.widen.isNaN then quietNaN .single
      else if x.widen.isInfinite then BinaryFormat.single.infinity
      else BinaryFormat.single.roundMagnitude x.widen.significand x.widen.unit) = x.magnitude by
    unfold Binary64.narrow convert
    rw [same, sign, ofParts_self]
  rcases classes x with hn | ⟨_, hi, _⟩ | ⟨_, hi, hf⟩
  · exact absurd (hn.symm.trans h) (by decide)
  · rw [if_pos hi] at magnitude
    have notNaN : x.widen.isNaN = false := by
      rw [isNaN, magnitude]
      decide
    have infinite : x.widen.isInfinite = true := by
      rw [isInfinite, magnitude]
      decide
    rw [notNaN, infinite, if_neg Bool.false_ne_true, if_pos rfl]
    exact (of_decide_eq_true hi).symm
  · obtain ⟨notNaN, notInfinite⟩ := classes_of_finite (isFinite_widen hf)
    rw [notNaN, notInfinite, if_neg Bool.false_ne_true, if_neg Bool.false_ne_true]
    by_cases zero : x.significand = 0
    · have lowest : x.unit = BinaryFormat.single.minUnit := by
        rcases x.unit_cases.1 with lowest | normal
        · exact lowest
        · rw [zero] at normal
          exact absurd normal (by decide)
      rw [significand_widen_zero hf zero, roundMagnitude_zero, magnitude_eq, lowest, zero,
        Int.sub_self, Int.toNat_zero, Nat.zero_mul]
    · obtain ⟨significand, unit⟩ := parts_widen hf zero
      rw [significand, unit, roundMagnitude_single hf zero]

end Binary32

end ArrayBridge
