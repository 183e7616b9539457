import Mathlib
import SparseQuantum.Proofs.PackedOutcomes
import SparseQuantum.Proofs.PhysicalSteps

/-!
# Runs seen in the product of all partitions

A run executes the instructions of a block one after the other, and one block after the other until
it comes to the last one. A program that allocates its qubits first has them in the slots from 0 on,
in order, and as long as no slot is freed they stay there. Measuring some of them scales up the
basis states that show the outcomes and drops all others, and the outcomes are packed into a
register.
-/

namespace SparseQuantum

set_option autoImplicit false

variable {R : Type}

open Simulator

/-! ### Instructions in order -/

namespace Run

variable [Scalar R] {registry : Registry R} {label : String}

omit [Scalar R] in
theorem perform_ok {α : Type} {site : Site R} {action : Action R α} {state : RunState R} {value : α}
    {after : Simulator R} (done : action state.simulator = .ok value after) :
    perform site action state = .ok value { state with simulator := after } := by
  unfold perform
  rw [done]

theorem execute_all_append_iff {first second : List (Instruction R)} {state after : RunState R} :
    executeAll registry label (first ++ second) state = .ok () after ↔
      ∃ middle, executeAll registry label first state = .ok () middle ∧
        executeAll registry label second middle = .ok () after := by
  induction first generalizing state with
  | nil =>
      constructor
      · exact fun done => ⟨state, rfl, done⟩
      · rintro ⟨middle, done, later⟩
        cases done
        exact later
  | cons instruction rest induction =>
      constructor
      · intro done
        rcases bind_ends done with ⟨_, _, _, absurdity⟩ | ⟨_, next, here, onward⟩
        · cases absurdity
        · obtain ⟨middle, done, later⟩ := induction.1 onward
          refine ⟨middle, ?_, later⟩
          change EStateM.bind (execute registry label instruction) _ state = _
          rw [EStateM.bind, here]
          exact done
      · rintro ⟨middle, done, later⟩
        rcases bind_ends done with ⟨_, _, _, absurdity⟩ | ⟨_, next, here, onward⟩
        · cases absurdity
        · change EStateM.bind (execute registry label instruction) _ state = _
          rw [EStateM.bind, here]
          exact induction.2 ⟨middle, onward, later⟩

theorem execute_all_cons_iff {instruction : Instruction R} {rest : List (Instruction R)}
    {state after : RunState R} :
    executeAll registry label (instruction :: rest) state = .ok () after ↔
      ∃ middle, execute registry label instruction state = .ok () middle ∧
        executeAll registry label rest middle = .ok () after := by
  constructor
  · intro done
    rcases bind_ends done with ⟨_, _, _, absurdity⟩ | ⟨_, middle, here, onward⟩
    · cases absurdity
    · exact ⟨middle, here, onward⟩
  · rintro ⟨middle, here, onward⟩
    change EStateM.bind (execute registry label instruction) _ state = _
    rw [EStateM.bind, here]
    exact onward

theorem execute_plugin (label : String) {name arguments : String} {plugin : Plugin R}
    (known : registry.resolve name = .ok plugin) {targets controls : List QubitId} {inverse : Bool}
    {state : RunState R} {call : Option (PluginCall R)} {after : Simulator R}
    (done : applyPlugin plugin targets arguments inverse controls state.simulator =
      .ok call after) :
    ∃ calls, execute registry label (.plugin name targets arguments inverse controls) state =
      .ok () ⟨after, calls⟩ := by
  have found (site : Site R) :
      perform site (Action.orRefuse (registry.resolve name)) state = .ok plugin state :=
    perform_ok (by rw [known]; rfl)
  change ∃ calls, EStateM.bind _ (fun plugin => EStateM.bind _ _) state = _
  rw [EStateM.bind, found]
  simp only
  rw [EStateM.bind, perform_ok done]
  cases call <;> exact ⟨_, rfl⟩

omit [Scalar R] in
theorem successor_branch {block : GraphBlock R} {simulator : Simulator R} {register : RegisterId}
    {onNonzero onZero : Nat} (branches : block.successor = .branch register onNonzero onZero)
    {bit : Bool} (holds : simulator.register register = if bit then 1 else 0) :
    successor block simulator = some (if bit then onNonzero else onZero) := by
  unfold successor
  rw [branches]
  change some (if simulator.register register ≠ 0 then _ else _) = _
  rw [holds]
  cases bit <;> rfl

/-- A run that comes to the last block, with the labels of the blocks that it takes. -/
inductive Passes (graph : BlockGraph R) (registry : Registry R) :
    Nat → RunState R → List String → RunState R → Prop where
  | last {label : String} {instructions : List (Instruction R)} {continuation : Successor}
      {state after : RunState R}
      (found : graph.blocks[graph.last]? = some ⟨label, instructions, continuation⟩)
      (done : executeAll registry label instructions state = .ok () after) :
      Passes graph registry graph.last state [label] after
  | onward {number next : Nat} {label : String} {instructions : List (Instruction R)}
      {continuation : Successor} {state middle after : RunState R} {labels : List String}
      (found : graph.blocks[number]? = some ⟨label, instructions, continuation⟩)
      (done : executeAll registry label instructions state = .ok () middle)
      (notLast : number ≠ graph.last)
      (follows : successor ⟨label, instructions, continuation⟩ middle.simulator = some next)
      (rest : Passes graph registry next middle labels after) :
      Passes graph registry number state (label :: labels) after

theorem loop_of_passes {graph : BlockGraph R} {number budget : Nat} {state after : RunState R}
    {labels : List String} (passes : Passes graph registry number state labels after)
    (enough : labels.length ≤ budget) :
    loop graph registry budget number state = some ⟨.ok (), after⟩ := by
  have steps {number : Nat} {block : GraphBlock R} {state middle : RunState R}
      (found : graph.blocks[number]? = some block)
      (done : executeAll registry block.label block.instructions state = .ok () middle) :
      step graph registry number state =
        .ok (if number = graph.last then none else successor block middle.simulator) middle := by
    unfold step
    rw [found]
    change EStateM.bind (executeAll registry block.label block.instructions) _ state = _
    rw [EStateM.bind, done]
    split_ifs <;> rfl
  induction passes generalizing budget with
  | last found done =>
      obtain ⟨less, rfl⟩ := Nat.exists_eq_add_of_le' enough
      rw [List.length_singleton, loop, steps found done, if_pos rfl]
  | onward found done notLast follows _ induction =>
      obtain ⟨less, rfl⟩ := Nat.exists_eq_add_of_le' enough
      rw [List.length_cons, ← Nat.add_assoc, loop, steps found done, if_neg notLast, follows]
      exact induction (Nat.le_add_left _ _)

end Run

/-! ### Qubits in order -/

/-- The qubits are allocated, in the slots from 0 on, and no slot was ever freed. -/
structure Simulator.LaidOut (simulator : Simulator R) (qubits : List QubitId) : Prop where
  allocated_iff : ∀ (qubit : QubitId) (slot : Nat),
    simulator.allocation[qubit]? = some slot ↔ qubits[slot]? = some qubit
  none_free : simulator.freeSlots = []
  none_parked : simulator.parkedSlots = []
  next : simulator.nextSlot = qubits.length

namespace Simulator.LaidOut

variable {simulator : Simulator R} {qubits : List QubitId}

theorem start [Scalar R] (maxQubits : Nat) (seed : UInt64) (draws : Draws) :
    ((ofSeed maxQubits seed : Simulator R).withDraws draws).LaidOut [] where
  allocated_iff qubit slot := by
    change (∅ : Std.ExtTreeMap QubitId Nat compare)[qubit]? = some slot ↔ _
    rw [Std.ExtTreeMap.getElem?_empty, List.getElem?_nil]
    simp
  none_free := rfl
  none_parked := rfl
  next := rfl

section Read

variable (laidOut : simulator.LaidOut qubits)

include laidOut

theorem slot_eq {qubit : QubitId} (listed : qubit ∈ qubits) :
    simulator.allocation[qubit]? = some (qubits.idxOf qubit) := by
  rw [laidOut.allocated_iff]
  exact List.getElem?_idxOf listed

theorem operands {listed : List QubitId} (different : listed.Nodup) (within : listed ⊆ qubits) :
    simulator.Operands listed (listed.map qubits.idxOf) := by
  refine ⟨different, ?_⟩
  rw [List.map_map]
  exact List.map_congr_left fun qubit member => laidOut.slot_eq (within member)

theorem congr {other : Simulator R} (allocation : other.allocation = simulator.allocation)
    (freeSlots : other.freeSlots = simulator.freeSlots)
    (parkedSlots : other.parkedSlots = simulator.parkedSlots)
    (nextSlot : other.nextSlot = simulator.nextSlot) : other.LaidOut qubits where
  allocated_iff := by
    rw [allocation]
    exact laidOut.allocated_iff
  none_free := freeSlots.trans laidOut.none_free
  none_parked := parkedSlots.trans laidOut.none_parked
  next := nextSlot.trans laidOut.next

end Read

end Simulator.LaidOut

namespace Run

section Alloc

variable [ExactScalar R] (registry : Registry R) (label : String)

/-- New qubits are laid out behind those that are there, and the product stays as it is. -/
theorem alloc_all {qubits earlier : List QubitId} {state : RunState R}
    (physical : state.simulator.Physical) (laidOut : state.simulator.LaidOut earlier)
    (distinct : (earlier ++ qubits).Nodup)
    (room : (earlier ++ qubits).length ≤ state.simulator.maxQubits) :
    ∃ after, executeAll registry label (qubits.map (Instruction.alloc · false)) state =
        .ok () after ∧
      after.simulator.Physical ∧ after.simulator.LaidOut (earlier ++ qubits) ∧
      after.simulator.globalState = state.simulator.globalState ∧
      after.simulator.dumps = state.simulator.dumps := by
  induction qubits generalizing earlier state with
  | nil =>
      rw [List.append_nil]
      exact ⟨state, rfl, physical, laidOut, rfl, rfl⟩
  | cons qubit rest induction =>
      have unknown : state.simulator.allocation[qubit]? = none := by
        rw [Option.eq_none_iff_forall_ne_some]
        intro slot found
        have member := List.mem_of_getElem? ((laidOut.allocated_iff qubit slot).1 found)
        exact (List.disjoint_of_nodup_append distinct) member List.mem_cons_self
      rw [List.length_append, List.length_cons] at room
      obtain ⟨after, done, physicalAfter, same, changed⟩ :=
        physical.alloc unknown laidOut.none_free (by rw [laidOut.next]; omega)
      have next : after.LaidOut (earlier ++ [qubit]) := by
        rw [changed]
        refine ⟨fun other slot => ?_, rfl, laidOut.none_parked, ?_⟩
        · change (state.simulator.allocation.insert qubit state.simulator.nextSlot)[other]? =
            some slot ↔ _
          rw [get_insert, laidOut.next, List.getElem?_append]
          by_cases here : other = qubit
          · rw [if_pos here, Option.some.injEq, here]
            split_ifs with inside
            · refine iff_of_false (by omega) fun listed => ?_
              rw [← laidOut.allocated_iff, unknown] at listed
              cases listed
            · rw [List.getElem?_singleton]
              split_ifs with last
              · exact iff_of_true (by omega) rfl
              · exact iff_of_false (by omega) (by simp)
          · rw [if_neg here, laidOut.allocated_iff]
            split_ifs with inside
            · rfl
            · rw [List.getElem?_eq_none (Nat.le_of_not_lt inside), List.getElem?_singleton]
              refine iff_of_false (by simp) fun listed => ?_
              split_ifs at listed
              exact here (Option.some.inj listed).symm
        · rw [List.length_append, List.length_singleton, ← laidOut.next]
      have split : earlier ++ qubit :: rest = (earlier ++ [qubit]) ++ rest := by
        rw [List.append_assoc, List.singleton_append]
      have limit : after.maxQubits = state.simulator.maxQubits := by rw [changed]
      obtain ⟨last, onward, physicalLast, laidOutLast, sameLast, dumps⟩ :=
        @induction (earlier ++ [qubit]) { state with simulator := after } physicalAfter next
          (by rw [← split]; exact distinct)
          (by rw [limit, ← split, List.length_append, List.length_cons]; exact room)
      refine ⟨last, execute_all_cons_iff.2 ⟨_, perform_ok done, onward⟩, physicalLast, ?_,
        sameLast.trans same, dumps.trans (by rw [changed])⟩
      rw [split]
      exact laidOutLast

end Alloc

section Free

variable [Scalar R] (registry : Registry R) (label : String)

/-- Qubits that are allocated can be freed one after the other. -/
theorem free_all {qubits : List QubitId} {state : RunState R}
    (wellFormed : state.simulator.WellFormed) (distinct : qubits.Nodup)
    (allocated : ∀ qubit ∈ qubits, ∃ slot, state.simulator.allocation[qubit]? = some slot) :
    ∃ after, executeAll registry label (qubits.map (Instruction.free · false)) state =
        .ok () after ∧
      after.simulator.WellFormed ∧
      (∀ qubit, after.simulator.allocation[qubit]? =
        if qubit ∈ qubits then none else state.simulator.allocation[qubit]?) ∧
      after.simulator.parkedSlots = state.simulator.parkedSlots ∧
      after.simulator.dumps = state.simulator.dumps ∧
      after.simulator.registers = state.simulator.registers := by
  induction qubits generalizing state with
  | nil => exact ⟨state, rfl, wellFormed, fun _ => (if_neg List.not_mem_nil).symm, rfl, rfl, rfl⟩
  | cons qubit rest induction =>
      obtain ⟨different, restDistinct⟩ := List.nodup_cons.1 distinct
      have outcome := free_outcome wellFormed qubit false
      have kept := outcome.well_formed wellFormed
      generalize answer : Simulator.free qubit false state.simulator = result at outcome kept
      cases outcome with
      | refused unknown =>
          obtain ⟨slot, found⟩ := allocated qubit List.mem_cons_self
          rw [unknown] at found
          cases found
      | parked _ isDirty => cases isDirty
      | @cleaned slot place partition bit draws left found _ owner stands sampled detaches arena =>
          let next : Simulator R := { state.simulator with
            allocation := state.simulator.allocation.erase qubit
            arena := left
            draws := draws
            freeSlots := slot :: state.simulator.freeSlots }
          have erased (other : QubitId) : next.allocation[other]? =
              if other = qubit then none else state.simulator.allocation[other]? := get_erase _ _ _
          have stillAllocated : ∀ other ∈ rest, ∃ slot, next.allocation[other]? = some slot := by
            intro other member
            rw [erased, if_neg fun same => different (by rw [← same]; exact member)]
            exact allocated other (List.mem_cons_of_mem qubit member)
          obtain ⟨last, onward, wellFormedLast, table, parked, dumps, registers⟩ :=
            @induction { state with simulator := next } kept restDistinct stillAllocated
          refine ⟨last, execute_all_cons_iff.2 ⟨_, perform_ok answer, onward⟩, wellFormedLast,
            fun other => ?_, parked, dumps, registers⟩
          rw [table]
          change (if other ∈ rest then none else next.allocation[other]?) = _
          rw [erased]
          by_cases here : other = qubit <;> simp [here]

end Free

section Measure

variable [ExactScalar R]

/-- Qubits that are measured one after the other scale up the basis states that show the outcomes,
and drop all others. -/
theorem measure_all {qubits : List QubitId} {slots : List Nat} {before : Simulator R}
    (physical : before.Physical)
    (found : qubits.map (before.allocation[·]?) = slots.map some) :
    ∃ bits after scale, measureAll qubits before = .ok bits after ∧ after.Physical ∧ scale ≠ 0 ∧
      (∀ index, after.globalState.value index =
        if slots.map index.isOne = bits then (before.globalState.value index).scaleDown scale
        else 0) ∧
      after = { before with arena := after.arena, draws := after.draws, bits := after.bits } := by
  induction qubits generalizing slots before with
  | nil =>
      rw [List.map_nil, eq_comm, List.map_eq_nil_iff] at found
      refine ⟨[], before, 1, rfl, physical, one_ne_zero, fun index => ?_, rfl⟩
      rw [found, List.map_nil, if_pos rfl]
      exact Amplitude.ext_parts (div_one _).symm (div_one _).symm
  | cons qubit rest induction =>
      cases slots with
      | nil => cases found
      | cons slot others =>
          rw [List.map_cons, List.map_cons, List.cons.injEq] at found
          have below := physical.well_formed.allocated_lt_width ⟨qubit, found.1⟩
          obtain ⟨bit, middle, here, physicalMiddle, collapsed, possible, changed⟩ :=
            physical.measure found.1
          have table : middle.allocation = before.allocation := by rw [changed]
          obtain ⟨bits, after, scale, onward, physicalAfter, nonzero, values, same⟩ :=
            induction physicalMiddle (by rw [table]; exact found.2)
          let norm := Scalar.sqrt (before.globalState.branchProbability slot bit)
          have positive : 0 < before.globalState.branchProbability slot bit := by
            rw [SparseState.branch_probability_eq] at possible ⊢
            exact lt_of_le_of_ne (SparseState.weight_nonneg _ _) possible.symm
          refine ⟨bit :: bits, after, norm * scale, ?_, physicalAfter,
            mul_ne_zero (Amplitude.sqrt_ne_zero positive) nonzero, fun index => ?_, ?_⟩
          · rw [measureAll, Action.bind_of_ok here, Action.bind_of_ok onward]
            rfl
          · have first := SparseState.value_collapse before.globalState below bit false index
            rw [Bool.not_false, Bool.and_true, SparseState.moved, Bool.false_and,
              if_neg Bool.false_ne_true] at first
            rw [values, collapsed, first, List.map_cons]
            by_cases shows : index.isOne slot = bit
            · by_cases later : others.map index.isOne = bits
              · rw [if_pos shows, if_pos later, if_pos (by rw [shows, later])]
                exact Amplitude.ext_parts (div_div _ _ _) (div_div _ _ _)
              · rw [if_neg later, if_neg fun same => later (List.cons.inj same).2]
            · rw [if_neg shows, Amplitude.scale_down_zero, ite_self,
                if_neg fun same => shows (List.cons.inj same).1]
          · rw [same, changed]

/-- The instruction that measures qubits packs what they show into its register. What they show is
what some basis state shows that has amplitude. -/
theorem execute_measured (registry : Registry R) (label : String) {qubits : List QubitId}
    {slots : List Nat} {state : RunState R} (physical : state.simulator.Physical)
    (found : qubits.map (state.simulator.allocation[·]?) = slots.map some)
    (register : RegisterId) :
    ∃ shown after scale, execute registry label (.measure qubits register) state = .ok () after ∧
      after.simulator.Physical ∧ scale ≠ 0 ∧ state.simulator.globalState.value shown ≠ 0 ∧
      (∀ index, after.simulator.globalState.value index =
        if slots.map index.isOne = slots.map shown.isOne then
          (state.simulator.globalState.value index).scaleDown scale
        else 0) ∧
      after.simulator = { state.simulator with
        arena := after.simulator.arena
        draws := after.simulator.draws
        bits := after.simulator.bits
        registers := state.simulator.registers.insert register
          (packBits (slots.map shown.isOne)).toInt64 } := by
  obtain ⟨bits, middle, scale, measured, physicalMiddle, nonzero, values, changed⟩ :=
    measure_all physical found
  let written : Simulator R := { middle with
    registers := middle.registers.insert register (packBits bits).toInt64 }
  have done : (measureAll qubits >>= fun bits =>
      Action.setRegister register (packBits bits).toInt64) state.simulator = .ok () written := by
    rw [Action.bind_of_ok measured]
    rfl
  obtain ⟨shown, amplitude, stored⟩ := physicalMiddle.stores_some
  have different : middle.globalState.value shown ≠ 0 := by
    rw [SparseState.value_of_get stored]
    exact physicalMiddle.zero_free shown amplitude stored
  rw [values] at different
  split_ifs at different with shows
  · refine ⟨shown, { state with simulator := written }, scale, perform_ok done, ?_, nonzero,
      fun zero => different ?_, ?_, ?_⟩
    · exact ⟨{ physicalMiddle.well_formed with }, physicalMiddle.faithful,
        physicalMiddle.normalized⟩
    · rw [zero, Amplitude.scale_down_zero]
    · rw [shows]
      exact values
    · change Simulator.mk .. = Simulator.mk ..
      rw [shows, changed]
  · exact absurd rfl different

end Measure

end Run

end SparseQuantum
