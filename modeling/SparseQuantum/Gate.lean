import SparseQuantum.Scalar

/-!
The one-qubit gates, with their mnemonics and angles. Controls are no part of a gate: they are given
where it is applied. Mnemonics are upper case; `ofName?` and `arity?` agree on which there are.
-/

namespace SparseQuantum

inductive Gate (R : Type) where
  | x
  | y
  | z
  /-- Hadamard. -/
  | h
  /-- A quarter turn of phase. -/
  | s
  | sAdjoint
  /-- An eighth turn of phase. -/
  | t
  | tAdjoint
  | phase (angle : R)
  | rotateX (angle : R)
  | rotateY (angle : R)
  | rotateZ (angle : R)
  | u2 (phi lambda : R)
  | u3 (theta phi lambda : R)
  deriving BEq

namespace Gate

variable {R : Type}

def name : Gate R → String
  | x => "X"
  | y => "Y"
  | z => "Z"
  | h => "H"
  | s => "S"
  | sAdjoint => "SD"
  | t => "T"
  | tAdjoint => "TD"
  | phase _ => "P"
  | rotateX _ => "RX"
  | rotateY _ => "RY"
  | rotateZ _ => "RZ"
  | u2 .. => "U2"
  | u3 .. => "U3"

def angles : Gate R → List R
  | phase angle | rotateX angle | rotateY angle | rotateZ angle => [angle]
  | u2 phi lambda => [phi, lambda]
  | u3 theta phi lambda => [theta, phi, lambda]
  | _ => []

def arity? (name : String) : Option Nat :=
  if name ∈ ["X", "Y", "Z", "H", "S", "SD", "T", "TD"] then some 0
  else if name ∈ ["P", "RX", "RY", "RZ"] then some 1
  else if name = "U2" then some 2
  else if name = "U3" then some 3
  else none

def ofName? (name : String) (angles : List R) : Option (Gate R) :=
  match angles with
  | [] =>
      if name = "X" then some x
      else if name = "Y" then some y
      else if name = "Z" then some z
      else if name = "H" then some h
      else if name = "S" then some s
      else if name = "SD" then some sAdjoint
      else if name = "T" then some t
      else if name = "TD" then some tAdjoint
      else none
  | [angle] =>
      if name = "P" then some (phase angle)
      else if name = "RX" then some (rotateX angle)
      else if name = "RY" then some (rotateY angle)
      else if name = "RZ" then some (rotateZ angle)
      else none
  | [phi, lambda] => if name = "U2" then some (u2 phi lambda) else none
  | [theta, phi, lambda] => if name = "U3" then some (u3 theta phi lambda) else none
  | _ => none

/-- The gate of two angles has a fixed quarter turn, so its inverse needs three. -/
def adjoint [Scalar R] : Gate R → Gate R
  | x => x
  | y => y
  | z => z
  | h => h
  | s => sAdjoint
  | sAdjoint => s
  | t => tAdjoint
  | tAdjoint => t
  | phase angle => phase (-angle)
  | rotateX angle => rotateX (-angle)
  | rotateY angle => rotateY (-angle)
  | rotateZ angle => rotateZ (-angle)
  | u2 phi lambda => u3 (-Scalar.halfPi) (-lambda) (-phi)
  | u3 theta phi lambda => u3 (-theta) (-lambda) (-phi)

def text (number : R → String) (gate : Gate R) : String :=
  match gate.angles with
  | [] => gate.name
  | angles => gate.name ++ "(" ++ ", ".intercalate (angles.map number) ++ ")"

end Gate

end SparseQuantum
