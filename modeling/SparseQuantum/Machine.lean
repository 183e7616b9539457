import SparseQuantum.Decimal.Text
import SparseQuantum.Dump.Snapshot
import SparseQuantum.Machine.Execution
import SparseQuantum.Program.Json
import SparseQuantum.Program.Resolve
import SparseQuantum.Settings

/-!
Machines: a resolved program together with the simulator of its last run. Every run begins with a
fresh simulator, so runs with the same seed are the same. The seed and the search path follow the
settings until they are pinned.
-/

namespace SparseQuantum

structure Machine (R : Type) where
  graph : BlockGraph R
  simulator : Simulator R
  registry : Registry R
  /-- The search path is taken from the settings at each run. -/
  followsSearchPath : Bool
  /-- The seed is taken from the settings at each run. -/
  followsSeed : Bool
  seed : UInt64

namespace Machine

variable {R : Type} [Scalar R]

def ofGraph (settings : Settings) (graph : BlockGraph R) : Machine R where
  graph := graph
  simulator := .ofSeed settings.maxQubits settings.seed
  registry := .ofSearchPath settings.pluginPath
  followsSearchPath := true
  followsSeed := true
  seed := settings.seed

def ofProgram (settings : Settings) (program : Program R) : Except ProgramError (Machine R) := do
  .ok (ofGraph settings (← program.resolve))

def withSeed (machine : Machine R) (settings : Settings) (seed : UInt64) : Machine R :=
  { machine with seed, followsSeed := false, simulator := .ofSeed settings.maxQubits seed }

/-- Looks plugins up in `registry` and keeps its search path. -/
def withRegistry (machine : Machine R) (registry : Registry R) : Machine R :=
  { machine with registry, followsSearchPath := false }

/-- The machine with a fresh simulator, as a run finds it. -/
def prepare (machine : Machine R) (settings : Settings) : Machine R :=
  let seed := if machine.followsSeed then settings.seed else machine.seed
  let registry := if machine.followsSearchPath then
    { machine.registry with searchPath := settings.pluginPath } else machine.registry
  { machine with seed, registry, simulator := .ofSeed settings.maxQubits seed }

/-- A run's result, the machine it leaves and what plugins were handed, the earliest first. -/
structure Report (R : Type) where
  result : Except (Interruption R) Unit
  machine : Machine R
  calls : List (CallRecord R)

/-- Runs the program from its entry; none if it takes more than `budget` blocks. -/
def run (machine : Machine R) (settings : Settings) (budget : Nat) : Option (Report R) :=
  let machine := machine.prepare settings
  (Run.loop machine.graph machine.registry budget machine.graph.entry ⟨machine.simulator, []⟩).map
    fun outcome =>
      ⟨outcome.result, { machine with simulator := outcome.state.simulator },
        outcome.state.calls.reverse⟩

def description (machine : Machine R) : Except Fault String := do
  .ok ("Vm \x7b blocks: " ++ toString machine.graph.blocks.length ++
    ", seed: " ++ toString machine.seed.toNat ++
    ", simulator: " ++ (← machine.simulator.description) ++
    ", registry: " ++ machine.registry.description ++ " \x7d")

end Machine

namespace Cause

def message : Cause → String
  | simulation error => error.message
  | arithmetic error => error.message

end Cause

inductive MachineError (R : Type) where
  | program (error : ProgramError)
  | serialization (flaw : Json.Flaw)
  | failure (label : String) (instruction : Instruction R) (cause : Cause)

namespace MachineError

def message : MachineError Float → String
  | program error => error.message
  | serialization flaw => (SimulatorError.serialization flaw).message
  | failure label instruction cause =>
      let kind := match cause with
        | .simulation _ => "Simulation"
        | .arithmetic _ => "Arithmetic"
      kind ++ " error in block '" ++ label ++ "' at `" ++ instruction.text Decimal.plain ++ "`: " ++
        cause.message

end MachineError

namespace Machine

def ofText (settings : Settings) (text : String) : Except (MachineError Float) (Machine Float) := do
  let program ← (Program.ofText text).mapError .serialization
  (ofProgram settings program).mapError .program

def snapshotFile (machine : Machine Float) (settings : Settings) (index : Nat)
    (random : BitVec 128) : Except SimulatorError SnapshotFile := do
  let dump ← machine.simulator.dump index
  let file := dump.file settings.dumpDirectory random
  if file.isWritable then .ok file else .error (.fileAccess "no file can be made there")

end Machine

end SparseQuantum
