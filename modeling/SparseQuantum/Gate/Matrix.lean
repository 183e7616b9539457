import SparseQuantum.Amplitude

/-!
Two-by-two complex matrices and those of the gates that mix the two values of a qubit. Whether a
matrix is unitary is tested up to a tolerance, since machine angles are rounded.
-/

namespace SparseQuantum

/-- The rows are `a b` and `c d`. -/
structure Matrix2 (R : Type) where
  a : Amplitude R
  b : Amplitude R
  c : Amplitude R
  d : Amplitude R

namespace Matrix2

variable {R : Type} [Scalar R]

def pauliY : Matrix2 R := ⟨.zero, ⟨0, -1⟩, ⟨0, 1⟩, .zero⟩

def hadamard : Matrix2 R :=
  let entry : Amplitude R := ⟨Scalar.invSqrtTwo, 0⟩
  ⟨entry, entry, entry, entry.neg⟩

def u2 (phi lambda : R) : Matrix2 R :=
  ⟨⟨Scalar.invSqrtTwo, 0⟩, (Amplitude.polar Scalar.invSqrtTwo lambda).neg,
    .polar Scalar.invSqrtTwo phi, .polar Scalar.invSqrtTwo (phi + lambda)⟩

def u3 (theta phi lambda : R) : Matrix2 R :=
  let c := Scalar.cos (Scalar.half theta)
  let s := Scalar.sin (Scalar.half theta)
  ⟨⟨c, 0⟩, (Amplitude.polar s lambda).neg, .polar s phi, .polar c (phi + lambda)⟩

/-- What a qubit of value `bit` becomes: the amplitudes of 0 and of 1. -/
def column (matrix : Matrix2 R) (bit : Bool) : Amplitude R × Amplitude R :=
  if bit then (matrix.b, matrix.d) else (matrix.a, matrix.c)

def adjoint (matrix : Matrix2 R) : Matrix2 R :=
  ⟨matrix.a.conj, matrix.c.conj, matrix.b.conj, matrix.d.conj⟩

def mul (left right : Matrix2 R) : Matrix2 R :=
  ⟨(left.a.mul right.a).add (left.b.mul right.c), (left.a.mul right.b).add (left.b.mul right.d),
    (left.c.mul right.a).add (left.d.mul right.c), (left.c.mul right.b).add (left.d.mul right.d)⟩

/-- Each entry of the product with the adjoint is nearer than `tolerance` to the identity's. -/
def isUnitary (matrix : Matrix2 R) (tolerance : R) : Bool :=
  let product := matrix.adjoint.mul matrix
  [product.a.sub .one, product.b, product.c, product.d.sub .one].all fun distance =>
    Scalar.isLt distance.norm tolerance

end Matrix2

end SparseQuantum
