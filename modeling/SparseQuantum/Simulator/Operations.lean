import SparseQuantum.Layout
import SparseQuantum.Plugin
import SparseQuantum.Simulator
import SparseQuantum.SparseState.Measurement

/-!
Gates, measurements, plugins and dumps on named qubits. Operands must be allocated and must not
repeat. A control whose partition has a single basis state is known beforehand: known to be 0, it
makes the operation do nothing, and known to be 1, it is left out. All other operands are brought
into one partition.
-/

namespace SparseQuantum.Simulator

variable {R : Type} [Scalar R]

/-- The controls that still matter, unless one of them is known to be 0. -/
def liveControls (simulator : Simulator R) : List Nat → Except Fault (Option (List Nat))
  | [] => .ok (some [])
  | slot :: rest =>
      let keep : Except Fault (Option (List Nat)) := do
        .ok ((← simulator.liveControls rest).map (slot :: ·))
      match simulator.arena.owner? slot with
      | none => keep
      | some place => do
          match (← simulator.arena.partition place).state.entries with
          | [(index, _)] =>
              BasisState.checkPositions [slot]
              if index.isZero slot then .ok none else simulator.liveControls rest
          | _ => keep

def operands (qubits : List QubitId) : Action R (List Nat) := do
  Action.orRefuse ((← get).slotsOf [] qubits)

def applyGate (gate : Gate R) (target : QubitId) (controls : List QubitId) : Action R Unit := do
  match ← operands (target :: controls) with
  | [] => pure ()
  | slot :: controlSlots =>
      match ← Action.orFault ((← get).liveControls controlSlots) with
      | none => pure ()
      | some live =>
          let place ← Action.merge slot live
          let state ← Action.stateAt place
          Action.setStateAt place (← Action.orFault (state.applyGate? gate slot live))

def measure (qubit : QubitId) : Action R Bool := do
  let slot ← Action.orRefuse ((← get).slotOf qubit)
  match (← get).arena.owner? slot with
  | none => Action.refuse (.notAllocated qubit)
  | some place =>
      let state ← Action.stateAt place
      let (bit, state, draws) ← Action.orFault (state.measure? slot (← get).draws)
      Action.setStateAt place state
      modify fun simulator =>
        { simulator with draws, bits := simulator.bits.insert qubit bit }
      pure bit

def splitActive (state : SparseState R) (positions : List Nat) :
    List (BasisState × Amplitude R) × List (BasisState × Amplitude R) :=
  state.entries.partition fun entry => entry.1.allOnes positions

def rejoin (left : SparseState R) (passive : List (BasisState × Amplitude R)) : Amplitudes R :=
  passive.foldl (fun amplitudes entry => amplitudes.accumulate entry.1 entry.2) left.amplitudes

/-- Runs `plugin` on a state in canonical layout: on success the entries with all controls 1 are
replaced by what it leaves, and on failure the state stays as it was. -/
def runPlugin (plugin : Plugin R) (state : SparseState R) (targets controls : Nat)
    (arguments : String) (inverse : Bool) :
    Except Fault (SparseState R × PluginCall R × Except Stop Unit) := do
  let positions := (List.range controls).map (targets + ·)
  let split ← state.guarded positions (splitActive state positions)
  let call : PluginCall R :=
    ⟨targets, controls, arguments, inverse, .ofAmplitudes (.ofEntries split.1)⟩
  let (left, outcome) := plugin.run call
  match outcome with
  | .ok () => .ok (state.replace (rejoin left split.2), call, outcome)
  | .error _ => .ok (state, call, outcome)

/-- Applies a plugin and answers with what it was handed, if it ran at all: it does not where a
control is known to be 0, nor without targets. -/
def applyPlugin (plugin : Plugin R) (targets : List QubitId) (arguments : String) (inverse : Bool)
    (controls : List QubitId) : Action R (Option (PluginCall R)) := do
  let slots ← operands (targets ++ controls)
  let targetSlots := slots.take targets.length
  match ← Action.orFault ((← get).liveControls (slots.drop targets.length)) with
  | none => pure none
  | some live =>
      match targetSlots with
      | [] => pure none
      | first :: rest =>
          let layout := targetSlots ++ live
          let place ← Action.merge first (rest ++ live)
          let state ← Action.stateAt place
          let canonical ← Action.orFault (Layout.canonicalize state layout)
          let (canonical, call, outcome) ← Action.orFault
            (runPlugin plugin canonical targets.length live.length arguments inverse)
          let restored ← Action.orFault (Layout.restore canonical layout)
          Action.setStateAt place restored
          match outcome with
          | .ok () => pure (some call)
          | .error stop => throw stop

def takeDump (qubits : List QubitId) : Action R Nat := do
  let slots ← operands qubits
  let record ← match slots with
    | [] => pure (SparseState.ground.dump 0)
    | first :: rest => do
        let place ← Action.merge first rest
        let state ← Action.stateAt place
        let canonical ← Action.orFault (Layout.canonicalize state slots)
        Action.setStateAt place (← Action.orFault (Layout.restore canonical slots))
        pure (canonical.dump slots.length)
  let index := (← get).dumps.size
  modify fun simulator => { simulator with dumps := simulator.dumps.push record }
  pure index

end SparseQuantum.Simulator
