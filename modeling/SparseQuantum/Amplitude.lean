import SparseQuantum.Scalar

/-!
Complex amplitudes over a scalar, with the products and quotients written out coordinate by
coordinate: on machine numbers the order of the operations is part of the result.
-/

namespace SparseQuantum

structure Amplitude (R : Type) where
  re : R
  im : R
  deriving BEq

namespace Amplitude

variable {R : Type} [Scalar R]

def zero : Amplitude R := ⟨0, 0⟩

def one : Amplitude R := ⟨1, 0⟩

def add (left right : Amplitude R) : Amplitude R := ⟨left.re + right.re, left.im + right.im⟩

def sub (left right : Amplitude R) : Amplitude R := ⟨left.re - right.re, left.im - right.im⟩

def neg (value : Amplitude R) : Amplitude R := ⟨-value.re, -value.im⟩

def mul (left right : Amplitude R) : Amplitude R :=
  ⟨left.re * right.re - left.im * right.im, left.re * right.im + left.im * right.re⟩

def scaleDown (value : Amplitude R) (divisor : R) : Amplitude R :=
  ⟨value.re / divisor, value.im / divisor⟩

def conj (value : Amplitude R) : Amplitude R := ⟨value.re, -value.im⟩

/-- `radius · e^{i·angle}` -/
def polar (radius angle : R) : Amplitude R :=
  ⟨radius * Scalar.cos angle, radius * Scalar.sin angle⟩

def normSq (value : Amplitude R) : R := value.re * value.re + value.im * value.im

def norm (value : Amplitude R) : R := Scalar.hypot value.re value.im

def isZero (value : Amplitude R) : Bool := Scalar.isZero value.re && Scalar.isZero value.im

/-- Amplitudes of less than the threshold's magnitude are not worth keeping. -/
def isKept (value : Amplitude R) : Bool := Scalar.isLe Scalar.threshold value.norm

/-- By real part, then by imaginary part. -/
def totalOrder (left right : Amplitude R) : Ordering :=
  (Scalar.totalOrder left.re right.re).then (Scalar.totalOrder left.im right.im)

end Amplitude

end SparseQuantum
