import SparseQuantum.Dump
import SparseQuantum.Partition
import SparseQuantum.Random.Draws
import SparseQuantum.Simulator.Error

/-!
A simulator of named qubits. A qubit occupies a slot, which is a position of basis states; the slots
in use are grouped into partitions. Beside the qubits a simulator holds integer registers, the bits
that were measured last, and the dumps that were taken.

Calls are actions on the simulator: an action that stops early leaves what it had done by then.
-/

namespace SparseQuantum

structure Simulator (R : Type) where
  arena : Arena R
  /-- The slot of each allocated qubit. -/
  allocation : Std.ExtTreeMap QubitId Nat compare
  /-- Slots that can be handed out again, the last one to be freed first. -/
  freeSlots : List Nat
  /-- Slots that were freed with the state they carry, the last one first. -/
  parkedSlots : List Nat
  /-- The slots from this one on have never been handed out. -/
  nextSlot : Nat
  maxQubits : Nat
  registers : Std.ExtTreeMap RegisterId Int64 compare
  bits : Std.ExtTreeMap QubitId Bool compare
  dumps : Array (Dump R)
  draws : Draws
  seed : UInt64

abbrev Action (R α : Type) := EStateM Stop (Simulator R) α

namespace Simulator

variable {R : Type} [Scalar R]

def ofSeed (maxQubits : Nat) (seed : UInt64) : Simulator R where
  arena := .empty
  allocation := .empty
  freeSlots := []
  parkedSlots := []
  nextSlot := 0
  maxQubits := maxQubits
  registers := .empty
  bits := .empty
  dumps := #[]
  draws := .ofSeed seed
  seed := seed

/-- Limits the number of slots, which never exceeds the width of basis states. -/
def withMaxQubits (simulator : Simulator R) (maxQubits : Nat) : Simulator R :=
  { simulator with maxQubits := min maxQubits width }

/-! ### Reading -/

def slotOf (simulator : Simulator R) (qubit : QubitId) : Except SimulatorError Nat :=
  match simulator.allocation[qubit]? with
  | some slot => .ok slot
  | none => .error (.notAllocated qubit)

/-- The slots of a list of operands, where an operand must not come again. -/
def slotsOf (simulator : Simulator R) (seen : List QubitId) :
    List QubitId → Except SimulatorError (List Nat)
  | [] => .ok []
  | qubit :: rest =>
      if qubit ∈ seen then .error (.duplicateQubit qubit)
      else do
        let slot ← simulator.slotOf qubit
        .ok (slot :: (← simulator.slotsOf (qubit :: seen) rest))

def bit (simulator : Simulator R) (qubit : QubitId) : Except SimulatorError Bool :=
  match simulator.bits[qubit]? with
  | some value => .ok value
  | none => .error (.notMeasured qubit)

def dump (simulator : Simulator R) (index : Nat) : Except SimulatorError (Dump R) :=
  match simulator.dumps[index]? with
  | some dump => .ok dump
  | none => .error (.dumpNotFound index simulator.dumps.size)

def register (simulator : Simulator R) (register : RegisterId) : Int64 :=
  simulator.registers[register]?.getD 0

def results (simulator : Simulator R) : String :=
  String.join (simulator.registers.toList.map fun (register, value) =>
    toString register.number.toNat ++ " " ++ toString value.toInt ++ "\n")

def partitionCount (simulator : Simulator R) : Except Fault Nat := simulator.arena.count

def description (simulator : Simulator R) : Except Fault String := do
  let partitions ← simulator.partitionCount
  .ok ("Simulator \x7b seed: " ++ toString simulator.seed.toNat ++
    ", qubits: " ++ toString simulator.allocation.size ++
    ", partitions: " ++ toString partitions ++
    ", registers: " ++ toString simulator.registers.size ++
    ", dumps: " ++ toString simulator.dumps.size ++ " \x7d")

def partitionOf (simulator : Simulator R) (qubit : QubitId) : Except Stop (Partition R) := do
  let slot ← (simulator.slotOf qubit).mapError .refused
  match simulator.arena.owner? slot with
  | some place => (simulator.arena.partition place).mapError .fault
  | none => .error (.refused (.notAllocated qubit))

end Simulator

namespace Action

variable {R α : Type} [Scalar R]

def refuse (error : SimulatorError) : Action R α := throw (.refused error)

def orRefuse (result : Except SimulatorError α) : Action R α :=
  match result with
  | .ok value => pure value
  | .error error => throw (.refused error)

/-- Goes on with the value that is there unless a bound is violated. -/
def orFault (result : Except Fault α) : Action R α :=
  match result with
  | .ok value => pure value
  | .error fault => throw (.fault fault)

def stateAt (place : Nat) : Action R (SparseState R) := do
  let partition ← orFault ((← get).arena.partition place)
  pure partition.state

def setStateAt (place : Nat) (state : SparseState R) : Action R Unit := do
  let arena ← orFault ((← get).arena.setState place state)
  modify fun simulator => { simulator with arena }

def merge (first : Nat) (others : List Nat) : Action R Nat := do
  let (place, arena) ← orFault ((← get).arena.merge first others)
  modify fun simulator => { simulator with arena }
  pure place

def setRegister (register : RegisterId) (value : Int64) : Action R Unit :=
  modify fun simulator =>
    { simulator with registers := simulator.registers.insert register value }

end Action

end SparseQuantum
