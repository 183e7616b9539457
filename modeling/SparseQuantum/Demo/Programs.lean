import SparseQuantum.Program

/-!
The programs of the demonstrations: a pair of entangled qubits, the teleportation of a state across
three qubits, and the addition of a constant to a register of qubits. Each leaves what it measures
in one register and frees all its qubits.
-/

namespace SparseQuantum.Demo

variable {R : Type}

/-- Where each program leaves its outcome. -/
def outcomeRegister : RegisterId := ⟨0⟩

def bell : Program R :=
  (Program.startingAt "main").block <|
    (Block.named "main").alloc ⟨0⟩
      |>.alloc ⟨1⟩
      |>.gate "H" ⟨0⟩
      |>.gateWith "X" [] ⟨1⟩ [⟨0⟩]
      |>.dump [⟨0⟩, ⟨1⟩]
      |>.measure [⟨0⟩, ⟨1⟩] outcomeRegister
      |>.free ⟨0⟩
      |>.free ⟨1⟩

/-- Prepares a state on qubit 0 by a rotation through `angle`, entangles qubits 1 and 2, and
measures qubits 0 and 1 into registers 1 and 2. -/
def prepareBlock (angle : R) : Block R :=
  (Block.named "prepare").alloc ⟨0⟩
    |>.alloc ⟨1⟩
    |>.alloc ⟨2⟩
    |>.gateWith "RY" [angle] ⟨0⟩ []
    |>.gate "H" ⟨1⟩
    |>.gateWith "X" [] ⟨2⟩ [⟨1⟩]
    |>.gateWith "X" [] ⟨1⟩ [⟨0⟩]
    |>.gate "H" ⟨0⟩
    |>.measure [⟨0⟩] ⟨1⟩
    |>.measure [⟨1⟩] ⟨2⟩
    |>.branch ⟨2⟩ "fix_x" "check_z"

def doneBlock : Block R :=
  (Block.named "done").dump [⟨2⟩]
    |>.measure [⟨2⟩] outcomeRegister
    |>.free ⟨0⟩
    |>.free ⟨1⟩
    |>.free ⟨2⟩

/-- Qubit 2 receives the state of qubit 0: each measured bit decides on one correction. -/
def teleport (angle : R) : Program R :=
  (Program.startingAt "prepare").block (prepareBlock angle)
    |>.block (((Block.named "fix_x").gate "X" ⟨2⟩).jump "check_z")
    |>.block ((Block.named "check_z").branch ⟨1⟩ "fix_z" "done")
    |>.block (((Block.named "fix_z").gate "Z" ⟨2⟩).jump "done")
    |>.block doneBlock

/-! ### Addition -/

/-- The qubits of a register of `width` qubits, the most significant first. -/
def registerQubits (width : Nat) : List QubitId :=
  (List.range width).map fun place => ⟨.ofNat place⟩

def onesOf (width : Nat) (value : UInt64) : List QubitId :=
  (List.range width).filterMap fun place =>
    if value.toNat.testBit (width - 1 - place) then some ⟨.ofNat place⟩ else none

def flip (qubit : QubitId) : Statement R := .gate "X" [] qubit []

/-- Both values of the least significant qubit, if there is one. -/
def spread (width : Nat) : List (Statement R) :=
  (registerQubits width).getLast?.toList.map fun qubit => .gate "H" [] qubit []

/-- Writes `value` to a register, adds `offset` to it and measures the sum. -/
def adder (width : Nat) (value : UInt64) (offset : Int64) (superpose : Bool) : Program R :=
  let qubits := registerQubits width
  let statements := qubits.map (.alloc · false) ++ (onesOf width value).map flip ++
    (if superpose then spread width else []) ++
    [.plugin "add" qubits (toString offset.toInt) false [], .measure qubits outcomeRegister] ++
    qubits.map (.free · false)
  ⟨"main", [⟨"main", statements, .stop⟩]⟩

end SparseQuantum.Demo
