import Mathlib
import SparseQuantum.Gate.Matrix

/-!
# Exact amplitudes

Over an ordered field with square roots, in which the constants and functions are the real ones as
far as they are needed, amplitudes are a commutative ring without zero divisors. A phase is then
never zero, and zero is always neglected. The real numbers are such a field.
-/

namespace SparseQuantum

set_option autoImplicit false

/-- An arithmetic without rounding. -/
class ExactScalar (R : Type) extends Scalar R, Field R, LinearOrder R, IsStrictOrderedRing R where
  ofNat_eq : ∀ value : Nat, Scalar.ofNat value = (value : R)
  is_eq_iff : ∀ left right : R, Scalar.isEq left right = true ↔ left = right
  is_lt_iff : ∀ left right : R, Scalar.isLt left right = true ↔ left < right
  is_le_iff : ∀ left right : R, Scalar.isLe left right = true ↔ left ≤ right
  sqrt_nonneg : ∀ value : R, 0 ≤ Scalar.sqrt value
  sqrt_mul_self : ∀ value : R, 0 ≤ value → Scalar.sqrt value * Scalar.sqrt value = value
  hypot_eq : ∀ left right : R,
    Scalar.hypot left right = Scalar.sqrt (left * left + right * right)
  cos_sin : ∀ angle : R,
    Scalar.cos angle * Scalar.cos angle + Scalar.sin angle * Scalar.sin angle = 1
  threshold_pos : 0 < (Scalar.threshold : R)

namespace Amplitude

variable {R : Type} [ExactScalar R]

omit [ExactScalar R] in
theorem ext_parts {left right : Amplitude R} (real : left.re = right.re)
    (imaginary : left.im = right.im) : left = right := by
  cases left
  cases right
  simp_all

section Operations

variable {K : Type} [Scalar K]

instance : Zero (Amplitude K) := ⟨zero⟩

instance : One (Amplitude K) := ⟨one⟩

instance : Add (Amplitude K) := ⟨add⟩

instance : Neg (Amplitude K) := ⟨neg⟩

instance : Sub (Amplitude K) := ⟨sub⟩

instance : Mul (Amplitude K) := ⟨mul⟩

end Operations

theorem mul_re (left right : Amplitude R) :
    (left * right).re = left.re * right.re - left.im * right.im := rfl

theorem mul_im (left right : Amplitude R) :
    (left * right).im = left.re * right.im + left.im * right.re := rfl

theorem add_re (left right : Amplitude R) : (left + right).re = left.re + right.re := rfl

theorem add_im (left right : Amplitude R) : (left + right).im = left.im + right.im := rfl

theorem zero_re : (0 : Amplitude R).re = 0 := rfl

theorem zero_im : (0 : Amplitude R).im = 0 := rfl

theorem one_re : (1 : Amplitude R).re = 1 := rfl

theorem one_im : (1 : Amplitude R).im = 0 := rfl

instance : CommRing (Amplitude R) where
  nsmul := nsmulRec
  zsmul := zsmulRec
  add_assoc _ _ _ := ext_parts (add_assoc _ _ _) (add_assoc _ _ _)
  zero_add _ := ext_parts (zero_add _) (zero_add _)
  add_zero _ := ext_parts (add_zero _) (add_zero _)
  neg_add_cancel _ := ext_parts (neg_add_cancel _) (neg_add_cancel _)
  sub_eq_add_neg _ _ := ext_parts (sub_eq_add_neg _ _) (sub_eq_add_neg _ _)
  add_comm _ _ := ext_parts (add_comm _ _) (add_comm _ _)
  mul_assoc _ _ _ := ext_parts (by simp only [mul_re, mul_im]; ring)
    (by simp only [mul_re, mul_im]; ring)
  mul_comm _ _ := ext_parts (by simp only [mul_re]; ring) (by simp only [mul_im]; ring)
  one_mul _ := ext_parts (by simp only [mul_re, one_re, one_im]; ring)
    (by simp only [mul_im, one_re, one_im]; ring)
  mul_one _ := ext_parts (by simp only [mul_re, one_re, one_im]; ring)
    (by simp only [mul_im, one_re, one_im]; ring)
  zero_mul _ := ext_parts (by simp only [mul_re, zero_re, zero_im]; ring)
    (by simp only [mul_im, zero_re, zero_im]; ring)
  mul_zero _ := ext_parts (by simp only [mul_re, zero_re, zero_im]; ring)
    (by simp only [mul_im, zero_re, zero_im]; ring)
  left_distrib _ _ _ := ext_parts (by simp only [mul_re, add_re, add_im]; ring)
    (by simp only [mul_im, add_re, add_im]; ring)
  right_distrib _ _ _ := ext_parts (by simp only [mul_re, add_re, add_im]; ring)
    (by simp only [mul_im, add_re, add_im]; ring)

/-! ### Magnitudes -/

theorem norm_sq_eq (value : Amplitude R) :
    value.normSq = value.re * value.re + value.im * value.im := rfl

theorem norm_sq_mul (left right : Amplitude R) :
    (left * right).normSq = left.normSq * right.normSq := by
  simp only [norm_sq_eq, mul_re, mul_im]
  ring

theorem norm_sq_nonneg (value : Amplitude R) : 0 ≤ value.normSq :=
  add_nonneg (mul_self_nonneg value.re) (mul_self_nonneg value.im)

theorem norm_sq_eq_zero_iff (value : Amplitude R) : value.normSq = 0 ↔ value = 0 := by
  constructor
  · intro nothing
    have parts := mul_self_add_mul_self_eq_zero.1 nothing
    exact ext_parts parts.1 parts.2
  · intro same
    rw [same, norm_sq_eq, zero_re, zero_im, mul_zero, add_zero]

theorem norm_sq_pos {value : Amplitude R} (different : value ≠ 0) : 0 < value.normSq :=
  lt_of_le_of_ne (norm_sq_nonneg value)
    (fun same => different ((norm_sq_eq_zero_iff value).1 same.symm))

instance : NoZeroDivisors (Amplitude R) where
  eq_zero_or_eq_zero_of_mul_eq_zero := by
    intro left right nothing
    rw [← norm_sq_eq_zero_iff, norm_sq_mul, mul_eq_zero, norm_sq_eq_zero_iff,
      norm_sq_eq_zero_iff] at nothing
    exact nothing

instance : Nontrivial (Amplitude R) where
  exists_pair_ne := by
    refine ⟨1, 0, fun same => ?_⟩
    have real := congrArg Amplitude.re same
    rw [one_re, zero_re] at real
    exact one_ne_zero real

theorem is_zero_iff (value : Amplitude R) : value.isZero = true ↔ value = 0 := by
  rw [isZero, Bool.and_eq_true, Scalar.isZero, Scalar.isZero, ExactScalar.is_eq_iff,
    ExactScalar.is_eq_iff]
  constructor
  · rintro ⟨real, imaginary⟩
    exact ext_parts real imaginary
  · intro same
    rw [same]
    exact ⟨rfl, rfl⟩

theorem sqrt_ne_zero {value : R} (positive : 0 < value) : Scalar.sqrt value ≠ 0 := by
  intro nothing
  have square := ExactScalar.sqrt_mul_self value (le_of_lt positive)
  rw [nothing, mul_zero] at square
  exact ne_of_lt positive square

/-- An amplitude that is kept is not zero. -/
theorem ne_zero_of_is_kept {value : Amplitude R} (kept : value.isKept = true) : value ≠ 0 := by
  intro same
  rw [isKept, ExactScalar.is_le_iff, norm, ExactScalar.hypot_eq, same, zero_re, zero_im, mul_zero,
    add_zero] at kept
  have square := ExactScalar.sqrt_mul_self (0 : R) (le_refl 0)
  rw [mul_self_eq_zero.1 square] at kept
  exact absurd ExactScalar.threshold_pos (not_lt_of_ge kept)

theorem norm_sq_polar (angle : R) : (polar 1 angle).normSq = 1 := by
  rw [norm_sq_eq]
  change 1 * Scalar.cos angle * (1 * Scalar.cos angle) +
    1 * Scalar.sin angle * (1 * Scalar.sin angle) = 1
  rw [one_mul, one_mul]
  exact ExactScalar.cos_sin angle

theorem polar_ne_zero (angle : R) : polar 1 angle ≠ 0 := by
  intro same
  have length := norm_sq_polar angle
  rw [(norm_sq_eq_zero_iff _).2 same] at length
  exact zero_ne_one length

theorem scale_down_ne_zero {value : Amplitude R} (different : value ≠ 0) {divisor : R}
    (positive : divisor ≠ 0) : value.scaleDown divisor ≠ 0 := by
  intro same
  apply different
  have real := congrArg Amplitude.re same
  have imaginary := congrArg Amplitude.im same
  exact ext_parts ((div_eq_zero_iff.1 real).resolve_right positive)
    ((div_eq_zero_iff.1 imaginary).resolve_right positive)

end Amplitude

/-! ### The real numbers -/

noncomputable instance : ExactScalar Real where
  __ := (inferInstance : Field Real)
  __ := (inferInstance : LinearOrder Real)
  __ := (inferInstance : IsStrictOrderedRing Real)
  ofNat value := value
  sqrt := Real.sqrt
  cos := Real.cos
  sin := Real.sin
  hypot left right := Real.sqrt (left * left + right * right)
  halfPi := Real.pi / 2
  quarterPi := Real.pi / 4
  invSqrtTwo := 1 / Real.sqrt 2
  threshold := 1 / 10000000000
  isEq left right := decide (left = right)
  isLt left right := decide (left < right)
  isLe left right := decide (left ≤ right)
  totalOrder left right := compare left right
  ofNat_eq _ := rfl
  is_eq_iff _ _ := decide_eq_true_iff
  is_lt_iff _ _ := decide_eq_true_iff
  is_le_iff _ _ := decide_eq_true_iff
  sqrt_nonneg := Real.sqrt_nonneg
  sqrt_mul_self _ := Real.mul_self_sqrt
  hypot_eq _ _ := rfl
  cos_sin angle := by
    rw [← pow_two, ← pow_two]
    exact Real.cos_sq_add_sin_sq angle
  threshold_pos := by norm_num

end SparseQuantum
