import SparseQuantum.Gate
import SparseQuantum.Json.Reader
import SparseQuantum.Json.Value

/-!
Gates in JSON texts: a gate without angles is its variant's name, one with a single angle an object
with the name and the angle, and one with several an object with the name and an array.
-/

namespace SparseQuantum.Gate

open Json

/-- The name of the variant, which is not the mnemonic. -/
def variantName : Gate Float → String
  | x => "X"
  | y => "Y"
  | z => "Z"
  | h => "H"
  | s => "S"
  | sAdjoint => "Sd"
  | t => "T"
  | tAdjoint => "Td"
  | phase _ => "P"
  | rotateX _ => "Rx"
  | rotateY _ => "Ry"
  | rotateZ _ => "Rz"
  | u2 .. => "U2"
  | u3 .. => "U3"

def toJson (gate : Gate Float) : Value :=
  match gate.angles with
  | [] => .text gate.variantName
  | [angle] => .object [(gate.variantName, .real angle)]
  | angles => .object [(gate.variantName, .array (angles.map .real))]

def ofOneAngle (make : Float → Gate Float) : Variant (Gate Float) :=
  .carrying fun content => make <$> content.readFloat

def readTwoAngles (content : Tree) : Except Flaw (Gate Float) := do
  match ← content.readTuple 2 with
  | [phi, lambda] => .ok (u2 phi lambda)
  | _ => .error .mismatched

def readThreeAngles (content : Tree) : Except Flaw (Gate Float) := do
  match ← content.readTuple 3 with
  | [theta, phi, lambda] => .ok (u3 theta phi lambda)
  | _ => .error .mismatched

def variant? : String → Option (Variant (Gate Float))
  | "X" => some (.bare x)
  | "Y" => some (.bare y)
  | "Z" => some (.bare z)
  | "H" => some (.bare h)
  | "S" => some (.bare s)
  | "Sd" => some (.bare sAdjoint)
  | "T" => some (.bare t)
  | "Td" => some (.bare tAdjoint)
  | "P" => some (ofOneAngle phase)
  | "Rx" => some (ofOneAngle rotateX)
  | "Ry" => some (ofOneAngle rotateY)
  | "Rz" => some (ofOneAngle rotateZ)
  | "U2" => some (.carrying readTwoAngles)
  | "U3" => some (.carrying readThreeAngles)
  | _ => none

def read (tree : Tree) : Except Flaw (Gate Float) := tree.readChoice variant?

def ofText (text : String) : Except Flaw (Gate Float) := readDocument read text

end SparseQuantum.Gate
