import SparseQuantum.MachineFloat

/-!
The arithmetic that amplitudes are made of. Everything above this module is written against
`Scalar`, so that the same text of the library runs on machine numbers and can be read over an exact
field. The instance given here is the machine one.
-/

namespace SparseQuantum

class Scalar (R : Type) extends Zero R, One R, Add R, Neg R, Sub R, Mul R, Div R where
  ofNat : Nat → R
  sqrt : R → R
  cos : R → R
  sin : R → R
  /-- The length of the vector with the two given coordinates. -/
  hypot : R → R → R
  /-- π/2 -/
  halfPi : R
  /-- π/4 -/
  quarterPi : R
  /-- 1/√2 -/
  invSqrtTwo : R
  /-- Amplitudes of smaller magnitude are neglected. -/
  threshold : R
  isEq : R → R → Bool
  isLt : R → R → Bool
  isLe : R → R → Bool
  /-- A total order that separates the two zeros, the negative one first. -/
  totalOrder : R → R → Ordering

namespace Scalar

variable {R : Type} [Scalar R]

def isZero (value : R) : Bool := isEq value 0

def two : R := ofNat 2

def half (value : R) : R := value / two

end Scalar

instance : Scalar Float where
  zero := 0
  one := 1
  ofNat := Float.ofNat
  sqrt := Float.sqrt
  cos := Float.cos
  sin := Float.sin
  hypot := MachineFloat.hypot
  halfPi := Float.ofBits 0x3FF921FB54442D18
  quarterPi := Float.ofBits 0x3FE921FB54442D18
  invSqrtTwo := Float.ofBits 0x3FE6A09E667F3BCD
  threshold := Float.ofBits 0x3DDB7CDFD9D7BDBB
  isEq x y := x == y
  isLt x y := x < y
  isLe x y := x ≤ y
  totalOrder x y := compare (MachineFloat.orderKey x.toBits) (MachineFloat.orderKey y.toBits)

end SparseQuantum
