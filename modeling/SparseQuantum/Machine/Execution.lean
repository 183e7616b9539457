import SparseQuantum.Plugin.Registry
import SparseQuantum.Program.Graph
import SparseQuantum.Simulator.Lifecycle
import SparseQuantum.Simulator.Operations

/-!
Executing instructions and blocks of a graph. An instruction that fails ends the run; what earlier
instructions did stays, and so does what the failing one had done. A run also keeps what it handed
to plugins.
-/

namespace SparseQuantum

inductive Cause where
  | simulation (error : SimulatorError)
  | arithmetic (error : ArithmeticError)

/-- What ends a run early. -/
inductive Interruption (R : Type) where
  | failure (label : String) (instruction : Instruction R) (cause : Cause)
  | fault (fault : Fault)

abbrev CallRecord (R : Type) := String × PluginCall R

structure RunState (R : Type) where
  simulator : Simulator R
  /-- The calls to plugins so far, the latest first. -/
  calls : List (CallRecord R)

abbrev Run (R α : Type) := EStateM (Interruption R) (RunState R) α

namespace Run

variable {R : Type} [Scalar R]

structure Site (R : Type) where
  label : String
  instruction : Instruction R

def perform {α : Type} (site : Site R) (action : Action R α) : Run R α := fun state =>
  match action state.simulator with
  | .ok value simulator => .ok value { state with simulator }
  | .error (.refused error) simulator =>
      .error (.failure site.label site.instruction (.simulation error)) { state with simulator }
  | .error (.fault fault) simulator => .error (.fault fault) { state with simulator }

def noteCall (name : String) : Option (PluginCall R) → Run R Unit
  | some call => modify fun state => { state with calls := (name, call) :: state.calls }
  | none => pure ()

/-- The bits as one number, the first one highest. -/
def packBits (bits : List Bool) : UInt64 :=
  bits.foldl (fun value bit => (value <<< 1) ||| (if bit then 1 else 0)) 0

def measureAll : List QubitId → Action R (List Bool)
  | [] => pure []
  | qubit :: rest => do
      let bit ← Simulator.measure qubit
      pure (bit :: (← measureAll rest))

def execute (registry : Registry R) (label : String) (instruction : Instruction R) : Run R Unit :=
  let site : Site R := ⟨label, instruction⟩
  match instruction with
  | .alloc qubit dirty => perform site (Simulator.alloc qubit dirty)
  | .free qubit dirty => perform site (Simulator.free qubit dirty)
  | .gate gate target controls => perform site (Simulator.applyGate gate target controls)
  | .measure qubits register => perform site do
      let bits ← measureAll qubits
      Action.setRegister register (packBits bits).toInt64
  | .dump qubits => perform site (discard (Simulator.takeDump qubits))
  | .plugin name targets arguments inverse controls => do
      let plugin ← perform site (Action.orRefuse (registry.resolve name))
      let call ← perform site (Simulator.applyPlugin plugin targets arguments inverse controls)
      noteCall name call
  | .constant register value => perform site (Action.setRegister register value)
  | .move target source => do
      let value := (← get).simulator.register source
      perform site (Action.setRegister target value)
  | .binary operator target left right => do
      let simulator := (← get).simulator
      match operator.apply (simulator.register left) (simulator.register right) with
      | .ok value => perform site (Action.setRegister target value)
      | .error error => throw (.failure label instruction (.arithmetic error))
  | .unary operator target source => do
      let value := operator.apply ((← get).simulator.register source)
      perform site (Action.setRegister target value)

def executeAll (registry : Registry R) (label : String) : List (Instruction R) → Run R Unit
  | [] => pure ()
  | instruction :: rest => do
      execute registry label instruction
      executeAll registry label rest

/-- The number of the block to continue with, if there is one. -/
def successor (block : GraphBlock R) (simulator : Simulator R) : Option Nat :=
  match block.successor with
  | .jump next => some next
  | .branch register onNonzero onZero =>
      some (if simulator.register register ≠ 0 then onNonzero else onZero)
  | .stop => none

/-- Executes the block of the number and tells with which to continue, unless it was the last. -/
def step (graph : BlockGraph R) (registry : Registry R) (number : Nat) : Run R (Option Nat) := do
  match graph.blocks[number]? with
  | none => throw (.fault (.block number))
  | some block =>
      executeAll registry block.label block.instructions
      if number = graph.last then pure none
      else pure (successor block (← get).simulator)

structure Outcome (R : Type) where
  result : Except (Interruption R) Unit
  state : RunState R

/-- Executes blocks from the given one on until the run ends; none if it takes more than so many. -/
def loop (graph : BlockGraph R) (registry : Registry R) :
    Nat → Nat → RunState R → Option (Outcome R)
  | 0, _, _ => none
  | budget + 1, number, state =>
      match step graph registry number state with
      | .ok none state => some ⟨.ok (), state⟩
      | .ok (some next) state => loop graph registry budget next state
      | .error interruption state => some ⟨.error interruption, state⟩

end Run

end SparseQuantum
