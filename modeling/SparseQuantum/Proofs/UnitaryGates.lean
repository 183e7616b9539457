import Mathlib
import SparseQuantum.Proofs.ControlledMatrices

/-!
# Gates are unitary

Where sine and cosine obey the addition formulas, the matrix of the inverse gate is the conjugate
transpose of the gate's matrix, and a gate's matrix times that is the identity. Rotations of either
kind have one shape, which is turned back by turning the other way with the two phases exchanged.
Applying two matrices to one target under the same controls is applying their product.
-/

namespace SparseQuantum

set_option autoImplicit false

/-- An arithmetic whose sine and cosine obey the identities of the real ones. An eighth of a turn is
where both are 1/√2. -/
class ExactAngles (R : Type) extends ExactScalar R where
  cos_neg : ∀ angle : R, Scalar.cos (-angle) = Scalar.cos angle
  sin_neg : ∀ angle : R, Scalar.sin (-angle) = -Scalar.sin angle
  cos_add : ∀ first second : R, Scalar.cos (first + second) =
    Scalar.cos first * Scalar.cos second - Scalar.sin first * Scalar.sin second
  sin_add : ∀ first second : R, Scalar.sin (first + second) =
    Scalar.sin first * Scalar.cos second + Scalar.cos first * Scalar.sin second
  half_pi_eq : (Scalar.halfPi : R) = Scalar.quarterPi + Scalar.quarterPi
  cos_quarter_pi : Scalar.cos (Scalar.quarterPi : R) = Scalar.invSqrtTwo
  sin_quarter_pi : Scalar.sin (Scalar.quarterPi : R) = Scalar.invSqrtTwo

noncomputable instance : ExactAngles Real where
  cos_neg := Real.cos_neg
  sin_neg := Real.sin_neg
  cos_add := Real.cos_add
  sin_add := Real.sin_add
  half_pi_eq := by
    change Real.pi / 2 = Real.pi / 4 + Real.pi / 4
    ring
  cos_quarter_pi := by
    change Real.cos (Real.pi / 4) = 1 / Real.sqrt 2
    rw [Real.cos_pi_div_four, Real.sqrt_div_self']
  sin_quarter_pi := by
    change Real.sin (Real.pi / 4) = 1 / Real.sqrt 2
    rw [Real.sin_pi_div_four, Real.sqrt_div_self']

/-! ### Angles -/

namespace ExactAngles

theorem half_eq {R : Type} [ExactScalar R] (angle : R) : Scalar.half angle = angle / 2 := by
  rw [Scalar.half, Scalar.two, ExactScalar.ofNat_eq, Nat.cast_ofNat]

theorem half_neg {R : Type} [ExactScalar R] (angle : R) :
    Scalar.half (-angle) = -Scalar.half angle := by
  rw [half_eq, half_eq, neg_div]

variable {R : Type} [ExactAngles R]

theorem cos_zero : Scalar.cos (0 : R) = 1 := by
  have sum := cos_add (0 : R) (-0)
  rw [cos_neg, sin_neg, mul_neg, sub_neg_eq_add, ExactScalar.cos_sin, neg_zero, add_zero] at sum
  exact sum

theorem sin_zero : Scalar.sin (0 : R) = 0 := by
  have odd := sin_neg (0 : R)
  rw [neg_zero] at odd
  exact self_eq_neg.1 odd

theorem half_half_pi : Scalar.half (Scalar.halfPi : R) = Scalar.quarterPi := by
  rw [half_eq, half_pi_eq, add_self_div_two]

theorem inv_sqrt_two_sq :
    (Scalar.invSqrtTwo : R) * Scalar.invSqrtTwo + Scalar.invSqrtTwo * Scalar.invSqrtTwo = 1 := by
  have one := ExactScalar.cos_sin (Scalar.quarterPi : R)
  rw [cos_quarter_pi, sin_quarter_pi] at one
  exact one

theorem inv_sqrt_two_mul_self : (Scalar.invSqrtTwo : R) * Scalar.invSqrtTwo = 1 / 2 := by
  linear_combination inv_sqrt_two_sq (R := R) / 2

end ExactAngles

/-! ### Amplitudes by magnitude and angle -/

namespace Amplitude

section Exact

variable {R : Type} [ExactScalar R]

theorem conj_mk (real imaginary : R) :
    (⟨real, imaginary⟩ : Amplitude R).conj = ⟨real, -imaginary⟩ := rfl

theorem conj_zero : (0 : Amplitude R).conj = 0 := ext_parts rfl neg_zero

theorem conj_one : (1 : Amplitude R).conj = 1 := ext_parts rfl neg_zero

theorem conj_mul_self (value : Amplitude R) : value.conj * value = ⟨value.normSq, 0⟩ := by
  apply ext_parts
  · simp only [mul_re, conj, norm_sq_eq]
    ring
  · simp only [mul_im, conj]
    ring

theorem polar_zero_left (angle : R) : polar 0 angle = 0 :=
  ext_parts (zero_mul _) (zero_mul _)

theorem polar_add_polar (first second angle : R) :
    polar first angle + polar second angle = polar (first + second) angle :=
  ext_parts (add_mul _ _ _).symm (add_mul _ _ _).symm

theorem neg_polar (radius angle : R) : (polar radius angle).neg = polar (-radius) angle :=
  ext_parts (neg_mul _ _).symm (neg_mul _ _).symm

end Exact

variable {R : Type} [ExactAngles R]

theorem polar_zero_right (radius : R) : polar radius 0 = ⟨radius, 0⟩ := by
  rw [polar, ExactAngles.cos_zero, ExactAngles.sin_zero, mul_one, mul_zero]

theorem conj_polar (radius angle : R) : (polar radius angle).conj = polar radius (-angle) := by
  rw [polar, polar, ExactAngles.cos_neg, ExactAngles.sin_neg, mul_neg]
  rfl

theorem polar_mul_polar (first second angle other : R) :
    polar first angle * polar second other = polar (first * second) (angle + other) := by
  apply ext_parts
  · simp only [mul_re, polar, ExactAngles.cos_add]
    ring
  · simp only [mul_im, polar, ExactAngles.sin_add]
    ring

end Amplitude

/-! ### Matrices -/

namespace Matrix2

section Scalar

variable {R : Type} [Scalar R]

def identity : Matrix2 R := .diagonal 1 1

def Unitary (matrix : Matrix2 R) : Prop := matrix.adjoint.mul matrix = identity

omit [Scalar R] in
theorem ext_entries {left right : Matrix2 R} (a : left.a = right.a) (b : left.b = right.b)
    (c : left.c = right.c) (d : left.d = right.d) : left = right := by
  cases left
  cases right
  simp_all

end Scalar

section Exact

variable {R : Type} [ExactScalar R]

theorem mul_a (left right : Matrix2 R) :
    (left.mul right).a = left.a * right.a + left.b * right.c := rfl

theorem mul_b (left right : Matrix2 R) :
    (left.mul right).b = left.a * right.b + left.b * right.d := rfl

theorem mul_c (left right : Matrix2 R) :
    (left.mul right).c = left.c * right.a + left.d * right.c := rfl

theorem mul_d (left right : Matrix2 R) :
    (left.mul right).d = left.c * right.b + left.d * right.d := rfl

theorem act_act (left right : Matrix2 R) {target : Nat} {controls : List Nat}
    (inside : target < width) (absent : target ∉ controls)
    (amplitude : BasisState → Amplitude R) :
    left.act target controls (right.act target controls amplitude) =
      (left.mul right).act target controls amplitude := by
  funext index
  have there := BasisState.is_one_flip_self index inside
  simp only [act, BasisState.all_ones_flip index absent, BasisState.flip_flip, there, mul_a, mul_b,
    mul_c, mul_d]
  cases index.allOnes controls with
  | false => rfl
  | true =>
      cases index.isOne target with
      | false => simp; ring
      | true => simp; ring

theorem identity_act (target : Nat) (controls : List Nat) (amplitude : BasisState → Amplitude R) :
    (identity : Matrix2 R).act target controls amplitude = amplitude := by
  funext index
  simp [act, identity, diagonal]

theorem adjoint_adjoint (matrix : Matrix2 R) : matrix.adjoint.adjoint = matrix := by
  simp [adjoint, Amplitude.conj]

theorem adjoint_diagonal (onZero onOne : Amplitude R) :
    (diagonal onZero onOne).adjoint = diagonal onZero.conj onOne.conj := by
  rw [adjoint, diagonal, diagonal, Amplitude.conj_zero]

theorem unitary_diagonal {onZero onOne : Amplitude R} (zeroTurns : onZero.normSq = 1)
    (oneTurns : onOne.normSq = 1) : (diagonal onZero onOne).Unitary := by
  rw [Unitary, adjoint_diagonal]
  apply ext_entries
  · simp only [mul_a, diagonal, identity, Amplitude.conj_mul_self, zeroTurns, zero_mul, add_zero]
    rfl
  · simp [mul_b, diagonal, identity]
  · simp [mul_c, diagonal, identity]
  · simp only [mul_d, diagonal, identity, Amplitude.conj_mul_self, oneTurns, zero_mul, zero_add]
    rfl

end Exact

variable {R : Type} [ExactAngles R]

/-- The shape of rotations: by an angle of the given cosine and sine, between two phases. -/
def rotation (cosine sine phi lambda : R) : Matrix2 R :=
  ⟨.polar cosine 0, .polar (-sine) lambda, .polar sine phi, .polar cosine (phi + lambda)⟩

theorem u2_eq_rotation (phi lambda : R) :
    u2 phi lambda = rotation Scalar.invSqrtTwo Scalar.invSqrtTwo phi lambda := by
  rw [u2, rotation, Amplitude.neg_polar, Amplitude.polar_zero_right]

theorem u3_eq_rotation (theta phi lambda : R) :
    u3 theta phi lambda = rotation (Scalar.cos (Scalar.half theta))
      (Scalar.sin (Scalar.half theta)) phi lambda := by
  rw [rotation, ← Amplitude.neg_polar, Amplitude.polar_zero_right]
  rfl

theorem adjoint_rotation (cosine sine phi lambda : R) :
    (rotation cosine sine phi lambda).adjoint =
      rotation cosine (-sine) (-lambda) (-phi) := by
  simp only [adjoint, rotation, Amplitude.conj_polar, neg_zero, neg_neg, neg_add_rev]

theorem unitary_rotation {cosine sine : R} (square : cosine * cosine + sine * sine = 1)
    (phi lambda : R) : (rotation cosine sine phi lambda).Unitary := by
  have flat : (Amplitude.polar 1 0 : Amplitude R) = 1 := Amplitude.polar_zero_right 1
  rw [Unitary, adjoint_rotation]
  apply ext_entries
  · simp only [mul_a, rotation, Amplitude.polar_mul_polar, neg_neg, neg_add_cancel, add_zero]
    rw [Amplitude.polar_add_polar, square, flat]
    rfl
  · simp only [mul_b, rotation, Amplitude.polar_mul_polar, neg_neg, neg_add_cancel_left, zero_add]
    rw [Amplitude.polar_add_polar, show cosine * -sine + sine * cosine = 0 by ring,
      Amplitude.polar_zero_left]
    rfl
  · simp only [mul_c, rotation, Amplitude.polar_mul_polar, neg_add_cancel_right, add_zero]
    rw [Amplitude.polar_add_polar, show -sine * cosine + cosine * sine = 0 by ring,
      Amplitude.polar_zero_left]
    rfl
  · have turned : -lambda + -phi + (phi + lambda) = 0 := by ring
    simp only [mul_d, rotation, Amplitude.polar_mul_polar, neg_add_cancel, turned]
    rw [Amplitude.polar_add_polar, show -sine * -sine + cosine * cosine = 1 by
      rw [← square]; ring, flat]
    rfl

theorem adjoint_u3 (theta phi lambda : R) :
    (u3 theta phi lambda).adjoint = u3 (-theta) (-lambda) (-phi) := by
  rw [u3_eq_rotation, u3_eq_rotation, adjoint_rotation, ExactAngles.half_neg, ExactAngles.cos_neg,
    ExactAngles.sin_neg]

theorem unitary_u3 (theta phi lambda : R) : (u3 theta phi lambda).Unitary := by
  rw [u3_eq_rotation]
  exact unitary_rotation (ExactScalar.cos_sin _) phi lambda

/-- The fixed quarter turn is turned back by the angle that the general rotation is given. -/
theorem adjoint_u2 (phi lambda : R) :
    (u2 phi lambda).adjoint = u3 (-Scalar.halfPi) (-lambda) (-phi) := by
  rw [u2_eq_rotation, adjoint_rotation, u3_eq_rotation, ExactAngles.half_neg,
    ExactAngles.half_half_pi, ExactAngles.cos_neg, ExactAngles.sin_neg,
    ExactAngles.cos_quarter_pi, ExactAngles.sin_quarter_pi]

theorem unitary_u2 (phi lambda : R) : (u2 phi lambda).Unitary := by
  rw [u2_eq_rotation]
  exact unitary_rotation ExactAngles.inv_sqrt_two_sq phi lambda

end Matrix2

/-! ### Gates -/

namespace Gate

variable {R : Type} [ExactAngles R]

/-- The matrix of the inverse gate is the conjugate transpose. -/
theorem matrix_adjoint (gate : Gate R) : gate.adjoint.matrix = gate.matrix.adjoint := by
  cases gate with
  | x => simp only [adjoint, matrix, Matrix2.adjoint, Amplitude.conj_zero, Amplitude.conj_one]
  | y =>
      apply Matrix2.ext_entries
      · exact Amplitude.conj_zero.symm
      · exact Amplitude.ext_parts rfl rfl
      · exact Amplitude.ext_parts rfl (neg_neg (1 : R)).symm
      · exact Amplitude.conj_zero.symm
  | h => simp [adjoint, matrix, Matrix2.adjoint, Matrix2.hadamard, Amplitude.conj, Amplitude.neg]
  | z =>
      simp only [adjoint, matrix, Matrix2.adjoint_diagonal, Amplitude.conj_one, Amplitude.conj_mk,
        neg_zero]
  | s =>
      simp only [adjoint, matrix, Matrix2.adjoint_diagonal, Amplitude.conj_one, Amplitude.conj_mk]
  | sAdjoint =>
      simp only [adjoint, matrix, Matrix2.adjoint_diagonal, Amplitude.conj_one, Amplitude.conj_mk,
        neg_neg]
  | t =>
      simp only [adjoint, matrix, Matrix2.adjoint_diagonal, Amplitude.conj_one,
        Amplitude.conj_polar]
  | tAdjoint =>
      simp only [adjoint, matrix, Matrix2.adjoint_diagonal, Amplitude.conj_one,
        Amplitude.conj_polar, neg_neg]
  | phase angle =>
      simp only [adjoint, matrix, Matrix2.adjoint_diagonal, Amplitude.conj_one,
        Amplitude.conj_polar]
  | rotateX angle => simp only [adjoint, matrix, Matrix2.adjoint_u3, neg_neg]
  | rotateY angle => simp only [adjoint, matrix, Matrix2.adjoint_u3, neg_zero]
  | rotateZ angle =>
      simp only [adjoint, matrix, Matrix2.adjoint_diagonal, Amplitude.conj_polar,
        ExactAngles.half_neg, neg_neg]
  | u2 phi lambda => simp only [adjoint, matrix, Matrix2.adjoint_u2]
  | u3 theta phi lambda => simp only [adjoint, matrix, Matrix2.adjoint_u3]

theorem unitary_matrix (gate : Gate R) : gate.matrix.Unitary := by
  have one : (1 : Amplitude R).normSq = 1 := by simp [Amplitude.norm_sq_eq, Amplitude.one_re,
    Amplitude.one_im]
  have polar (angle : R) : (Amplitude.polar 1 angle).normSq = 1 := Amplitude.norm_sq_polar angle
  -- A gate that is its own inverse has to square to the identity.
  have involution (gate : Gate R) (own : gate.adjoint = gate)
      (square : gate.matrix.mul gate.matrix = .identity) : gate.matrix.Unitary := by
    rw [Matrix2.Unitary, ← matrix_adjoint, own]
    exact square
  cases gate with
  | x =>
      apply involution .x rfl
      apply Matrix2.ext_entries <;> simp [matrix, Matrix2.mul_a, Matrix2.mul_b, Matrix2.mul_c,
        Matrix2.mul_d, Matrix2.identity, Matrix2.diagonal]
  | y =>
      apply involution .y rfl
      apply Matrix2.ext_entries <;> apply Amplitude.ext_parts <;>
        simp [matrix, Matrix2.pauliY, Matrix2.mul_a, Matrix2.mul_b, Matrix2.mul_c, Matrix2.mul_d,
          Matrix2.identity, Matrix2.diagonal, Amplitude.zero, Amplitude.add_re, Amplitude.add_im,
          Amplitude.mul_re, Amplitude.mul_im, Amplitude.one_re, Amplitude.one_im,
          Amplitude.zero_re, Amplitude.zero_im]
  | h =>
      apply involution .h rfl
      have square := ExactAngles.inv_sqrt_two_sq (R := R)
      apply Matrix2.ext_entries <;> apply Amplitude.ext_parts <;>
        simp [matrix, Matrix2.hadamard, Matrix2.mul_a, Matrix2.mul_b, Matrix2.mul_c, Matrix2.mul_d,
          Matrix2.identity, Matrix2.diagonal, Amplitude.neg, Amplitude.add_re, Amplitude.add_im,
          Amplitude.mul_re, Amplitude.mul_im, Amplitude.one_re, Amplitude.one_im,
          Amplitude.zero_re, Amplitude.zero_im, square]
  | z => exact Matrix2.unitary_diagonal one (by simp [Amplitude.norm_sq_eq])
  | s => exact Matrix2.unitary_diagonal one (by simp [Amplitude.norm_sq_eq])
  | sAdjoint => exact Matrix2.unitary_diagonal one (by simp [Amplitude.norm_sq_eq])
  | t => exact Matrix2.unitary_diagonal one (polar _)
  | tAdjoint => exact Matrix2.unitary_diagonal one (polar _)
  | phase angle => exact Matrix2.unitary_diagonal one (polar angle)
  | rotateX angle => exact Matrix2.unitary_u3 _ _ _
  | rotateY angle => exact Matrix2.unitary_u3 _ _ _
  | rotateZ angle => exact Matrix2.unitary_diagonal (polar _) (polar _)
  | u2 phi lambda => exact Matrix2.unitary_u2 phi lambda
  | u3 theta phi lambda => exact Matrix2.unitary_u3 theta phi lambda

end Gate

end SparseQuantum
