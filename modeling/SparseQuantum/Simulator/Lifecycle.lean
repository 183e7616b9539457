import SparseQuantum.Simulator
import SparseQuantum.SparseState.Measurement

/-!
Allocating and freeing qubits. A clean qubit begins at 0 in a partition of its own; freed clean it
is measured, set to 0 and taken out of its partition, and its slot can be handed out again. A qubit
freed dirty leaves its slot and its state parked; a dirty allocation takes over the slot that was
parked last, and is a clean one if there is none.
-/

namespace SparseQuantum.Simulator

variable {R : Type} [Scalar R]

/-- A slot that is not in use: one that was freed, or the first that never was. -/
def takeSlot : Action R Nat := do
  let simulator ← get
  match simulator.freeSlots with
  | slot :: freeSlots =>
      set { simulator with freeSlots }
      pure slot
  | [] =>
      if simulator.nextSlot < simulator.maxQubits then
        set { simulator with nextSlot := simulator.nextSlot + 1 }
        pure simulator.nextSlot
      else Action.refuse (.limitExceeded simulator.maxQubits)

def occupy (qubit : QubitId) (slot : Nat) : Action R Unit :=
  modify fun simulator =>
    { simulator with allocation := simulator.allocation.insert qubit slot }

def allocClean (qubit : QubitId) : Action R Unit := do
  let slot ← takeSlot
  let arena ← Action.orFault ((← get).arena.insertSingleton slot)
  modify fun simulator => { simulator with arena }
  occupy qubit slot

def alloc (qubit : QubitId) (dirty : Bool) : Action R Unit := do
  let simulator ← get
  if simulator.allocation.contains qubit then Action.refuse (.alreadyAllocated qubit)
  else if dirty then
    match simulator.parkedSlots with
    | slot :: parkedSlots =>
        set { simulator with parkedSlots }
        occupy qubit slot
    | [] => allocClean qubit
  else allocClean qubit

/-- Measures the slot, sets it to 0 and takes it out of its partition. -/
def reset (slot : Nat) : Action R Unit := do
  match (← get).arena.owner? slot with
  | none => pure ()
  | some place =>
      let state ← Action.stateAt place
      let (state, draws) ← Action.orFault (state.measureAndReset? slot (← get).draws)
      Action.setStateAt place state
      let arena ← Action.orFault ((← get).arena.detach slot)
      modify fun simulator => { simulator with arena, draws }

def free (qubit : QubitId) (dirty : Bool) : Action R Unit := do
  let slot ← Action.orRefuse ((← get).slotOf qubit)
  modify fun simulator => { simulator with allocation := simulator.allocation.erase qubit }
  if dirty then
    modify fun simulator => { simulator with parkedSlots := slot :: simulator.parkedSlots }
  else
    reset slot
    modify fun simulator => { simulator with freeSlots := slot :: simulator.freeSlots }

end SparseQuantum.Simulator
