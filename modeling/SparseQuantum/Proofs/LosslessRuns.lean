import Mathlib
import SparseQuantum.Proofs.FollowedRuns

/-!
# Runs that lose nothing

Gates neglect small amplitudes, and a run in which every gate neglects nothing but zeros loses
nothing. On qubits that are laid out in order, a circuit of gates that loses nothing acts on the
product of all partitions as the product of its matrices. Whether one loses nothing can be told from
these alone: it does if they make only zeros and kept amplitudes, gate by gate.
-/

namespace SparseQuantum

set_option autoImplicit false

variable {R : Type}

open Simulator

structure GateCall (R : Type) where
  gate : Gate R
  target : QubitId
  controls : List QubitId

namespace GateCall

def instruction (call : GateCall R) : Instruction R := .gate call.gate call.target call.controls

def Within (call : GateCall R) (qubits : List QubitId) : Prop :=
  (call.target :: call.controls).Nodup ∧ call.target :: call.controls ⊆ qubits

instance (call : GateCall R) (qubits : List QubitId) : Decidable (call.Within qubits) :=
  inferInstanceAs (Decidable (_ ∧ _))

/-- Wherever its operands stand, the gate neglects nothing but zeros. -/
def NeglectsOnlyZeros [ExactScalar R] (call : GateCall R) (before : Simulator R) : Prop :=
  ∀ (slot : Nat) (controlSlots : List Nat),
    before.Operands (call.target :: call.controls) (slot :: controlSlots) →
      before.PrunesOnlyZeros call.gate slot controlSlots

/-- A gate that does not mix amplitudes neglects nothing. -/
theorem neglects_only_zeros_of_not_mixing [ExactScalar R] {call : GateCall R}
    (noMatrix : call.gate.mixing? = none) (before : Simulator R) :
    call.NeglectsOnlyZeros before := by
  intro slot controlSlots _ live place merged partition _ _ _ matrix mixes
  rw [noMatrix] at mixes
  cases mixes

variable [Scalar R]

def act (qubits : List QubitId) (call : GateCall R) (amplitude : BasisState → Amplitude R) :
    BasisState → Amplitude R :=
  call.gate.matrix.act (qubits.idxOf call.target) (call.controls.map qubits.idxOf) amplitude

end GateCall

def actAll [Scalar R] (qubits : List QubitId) (circuit : List (GateCall R))
    (amplitude : BasisState → Amplitude R) : BasisState → Amplitude R :=
  circuit.foldl (fun amplitude call => call.act qubits amplitude) amplitude

/-- Gate by gate, what the circuit makes of amplitudes is zero or large enough to be kept. -/
def SparesAll [ExactScalar R] (qubits : List QubitId) :
    List (GateCall R) → (BasisState → Amplitude R) → Prop
  | [], _ => True
  | call :: rest, amplitude =>
      call.gate.Spares (qubits.idxOf call.target) (call.controls.map qubits.idxOf) amplitude ∧
        SparesAll qubits rest (call.act qubits amplitude)

theorem act_all_append [Scalar R] (qubits : List QubitId) (first second : List (GateCall R))
    (amplitude : BasisState → Amplitude R) :
    actAll qubits (first ++ second) amplitude =
      actAll qubits second (actAll qubits first amplitude) :=
  List.foldl_append

theorem spares_all_append_iff [ExactScalar R] {qubits : List QubitId}
    {first second : List (GateCall R)} {amplitude : BasisState → Amplitude R} :
    SparesAll qubits (first ++ second) amplitude ↔
      SparesAll qubits first amplitude ∧
        SparesAll qubits second (actAll qubits first amplitude) := by
  induction first generalizing amplitude with
  | nil => exact (iff_of_eq (true_and _)).symm
  | cons call rest induction => exact (and_congr_right fun _ => induction).trans and_assoc.symm

namespace Run

section Lossless

variable [ExactScalar R] {graph : BlockGraph R} {registry : Registry R} {label : String}

/-- Run from the state, no gate of these instructions neglects anything but zeros. -/
def Lossless (registry : Registry R) (label : String) (instructions : List (Instruction R))
    (state : RunState R) : Prop :=
  ∀ (earlier later : List (Instruction R)) (call : GateCall R) (before : RunState R),
    instructions = earlier ++ call.instruction :: later →
    executeAll registry label earlier state = .ok () before →
      call.NeglectsOnlyZeros before.simulator

/-- No gate that the run from this block comes to neglects anything but zeros. -/
def LosesNothing (graph : BlockGraph R) (registry : Registry R) (number : Nat)
    (state : RunState R) : Prop :=
  ∀ (sites : List (Site R)) (label : String) (call : GateCall R) (before : RunState R),
    Reaches graph registry number state sites ⟨label, call.instruction⟩ before →
      call.NeglectsOnlyZeros before.simulator

theorem LosesNothing.lossless {number : Nat} {block : GraphBlock R} {state : RunState R}
    (losesNothing : LosesNothing graph registry number state)
    (found : graph.blocks[number]? = some block) :
    Lossless registry block.label block.instructions state :=
  fun _ _ call before split done =>
    losesNothing _ block.label call before (.inside found split done)

theorem lossless_append_iff {first second : List (Instruction R)} {state : RunState R} :
    Lossless registry label (first ++ second) state ↔
      Lossless registry label first state ∧
        ∀ middle, executeAll registry label first state = .ok () middle →
          Lossless registry label second middle := by
  constructor
  · intro lossless
    constructor
    · intro earlier later call before split done
      refine lossless earlier (later ++ second) call before ?_ done
      rw [split, List.append_assoc, List.cons_append]
    · intro middle passed earlier later call before split done
      refine lossless (first ++ earlier) later call before ?_
        (execute_all_append_iff.2 ⟨middle, passed, done⟩)
      rw [split, List.append_assoc]
  · rintro ⟨inFirst, inSecond⟩ earlier later call before split done
    rcases List.append_eq_append_iff.1 split with ⟨others, within, rest⟩ | ⟨others, within, rest⟩
    · rw [within, execute_all_append_iff] at done
      obtain ⟨middle, passed, onward⟩ := done
      exact inSecond middle passed others later call before rest onward
    · cases others with
      | nil =>
          rw [List.append_nil] at within
          rw [List.nil_append] at rest
          refine inSecond before ?_ [] later call before rest.symm rfl
          rw [within]
          exact done
      | cons gate others =>
          obtain ⟨rfl, rfl⟩ := List.cons.inj rest
          exact inFirst earlier others call before within done

theorem lossless_of_no_gate {instructions : List (Instruction R)}
    (noGate : ∀ instruction ∈ instructions, ∀ call : GateCall R, instruction ≠ call.instruction)
    (state : RunState R) : Lossless registry label instructions state := by
  intro earlier later call before split _
  refine absurd rfl (noGate call.instruction ?_ call)
  rw [split]
  exact List.mem_append_right _ List.mem_cons_self

theorem lossless_cons_iff {call : GateCall R} {rest : List (Instruction R)} {state : RunState R} :
    Lossless registry label (call.instruction :: rest) state ↔
      call.NeglectsOnlyZeros state.simulator ∧
        ∀ middle, execute registry label call.instruction state = .ok () middle →
          Lossless registry label rest middle := by
  constructor
  · intro lossless
    refine ⟨lossless [] rest call state rfl rfl, fun middle here earlier later other before split
      done => ?_⟩
    exact lossless (call.instruction :: earlier) later other before (by rw [split]; rfl)
      (execute_all_cons_iff.2 ⟨middle, here, done⟩)
  · rintro ⟨here, onward⟩ earlier later other before split done
    cases earlier with
    | nil =>
        obtain ⟨same, rfl⟩ := List.cons.inj split
        cases call
        cases other
        cases same
        cases done
        exact here
    | cons first earlier =>
        obtain ⟨rfl, rfl⟩ := List.cons.inj split
        obtain ⟨middle, passed, done⟩ := execute_all_cons_iff.1 done
        exact onward middle passed earlier later other before rfl done

/-- A run loses nothing if its first block does not and what follows does not. -/
theorem loses_nothing_of_block {number : Nat} {block : GraphBlock R} {state : RunState R}
    (found : graph.blocks[number]? = some block)
    (lossless : Lossless registry block.label block.instructions state)
    (onward : ∀ next middle,
      executeAll registry block.label block.instructions state = .ok () middle →
      successor block middle.simulator = some next → LosesNothing graph registry next middle) :
    LosesNothing graph registry number state := by
  intro sites label call before reaches
  generalize same : (⟨label, call.instruction⟩ : Site R) = site at reaches
  cases reaches with
  | inside foundHere split done =>
      cases found.symm.trans foundHere
      cases same
      exact lossless _ _ call before split done
  | onward foundHere done _ follows rest =>
      cases found.symm.trans foundHere
      cases same
      exact onward _ _ done follows _ _ call before rest

end Lossless

/-! ### Circuits -/

section Circuits

variable [ExactAngles R] {registry : Registry R} {label : String} {qubits : List QubitId}

/-- What is told of a circuit from its qubits also holds once a gate has been applied. -/
theorem gate_runs (registry : Registry R) (label : String) {call : GateCall R} {state : RunState R}
    (physical : state.simulator.Physical) (laidOut : state.simulator.LaidOut qubits)
    (within : call.Within qubits) (neglects : call.NeglectsOnlyZeros state.simulator) :
    ∃ after, execute registry label call.instruction state = .ok () after ∧
      after.simulator.Physical ∧ after.simulator.LaidOut qubits ∧
      after.simulator.globalState.value = call.act qubits state.simulator.globalState.value ∧
      after.simulator = { state.simulator with arena := after.simulator.arena } := by
  have found := laidOut.operands within.1 within.2
  rw [List.map_cons] at found
  obtain ⟨after, done, physicalAfter, values, changed⟩ :=
    physical.gate found (neglects _ _ found)
  refine ⟨_, perform_ok done, physicalAfter, ?_, funext values, changed⟩
  apply laidOut.congr <;> rw [changed]

/-- A circuit that loses nothing acts on the product as the product of its matrices. -/
theorem circuit_runs {circuit : List (GateCall R)} {state : RunState R}
    (physical : state.simulator.Physical) (laidOut : state.simulator.LaidOut qubits)
    (within : ∀ call ∈ circuit, call.Within qubits)
    (lossless : Lossless registry label (circuit.map GateCall.instruction) state) :
    ∃ after, executeAll registry label (circuit.map GateCall.instruction) state = .ok () after ∧
      after.simulator.Physical ∧ after.simulator.LaidOut qubits ∧
      after.simulator.globalState.value = actAll qubits circuit state.simulator.globalState.value ∧
      after.simulator = { state.simulator with arena := after.simulator.arena } := by
  induction circuit generalizing state with
  | nil => exact ⟨state, rfl, physical, laidOut, rfl, rfl⟩
  | cons call rest induction =>
      obtain ⟨neglects, onward⟩ := lossless_cons_iff.1 lossless
      obtain ⟨middle, here, physicalMiddle, laidOutMiddle, values, changed⟩ :=
        gate_runs registry label physical laidOut (within call List.mem_cons_self) neglects
      obtain ⟨after, done, physicalAfter, laidOutAfter, same, last⟩ :=
        induction physicalMiddle laidOutMiddle
          (fun other member => within other (List.mem_cons_of_mem call member)) (onward middle here)
      refine ⟨after, execute_all_cons_iff.2 ⟨middle, here, done⟩, physicalAfter, laidOutAfter, ?_,
        ?_⟩
      · rw [same, values]
        rfl
      · rw [last, changed]

/-- A circuit loses nothing if it makes only zeros and kept amplitudes of the product. -/
theorem lossless_of_spares {circuit : List (GateCall R)} {state : RunState R}
    (physical : state.simulator.Physical) (laidOut : state.simulator.LaidOut qubits)
    (within : ∀ call ∈ circuit, call.Within qubits)
    (spares : SparesAll qubits circuit state.simulator.globalState.value) :
    Lossless registry label (circuit.map GateCall.instruction) state := by
  induction circuit generalizing state with
  | nil => exact lossless_of_no_gate (fun _ member => absurd member List.not_mem_nil) state
  | cons call rest induction =>
      have withinHere := within call List.mem_cons_self
      have found := laidOut.operands withinHere.1 withinHere.2
      rw [List.map_cons] at found
      have neglects : call.NeglectsOnlyZeros state.simulator := by
        intro slot controlSlots operands
        cases found.unique operands
        exact physical.prunes_only_zeros found spares.1
      refine lossless_cons_iff.2 ⟨neglects, fun middle here => ?_⟩
      obtain ⟨after, done, physicalAfter, laidOutAfter, values, _⟩ :=
        gate_runs registry label physical laidOut withinHere neglects
      cases done.symm.trans here
      exact induction physicalAfter laidOutAfter
        (fun other member => within other (List.mem_cons_of_mem call member))
        (by rw [values]; exact spares.2)

end Circuits

end Run

end SparseQuantum
