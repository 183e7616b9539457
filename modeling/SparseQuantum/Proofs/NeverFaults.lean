import Mathlib
import SparseQuantum.Proofs.PartitionIndex
import SparseQuantum.Proofs.ProgramRuns
import SparseQuantum.Proofs.Refusals
import SparseQuantum.Proofs.ResolvedGraphs

/-!
# Runs without faults

A program that resolves never leaves the domain of a computation, however long it runs, as long as
its plugins do not: no block outside the graph is looked up, no slot without an owner, no place
outside the arena, no position outside the width, and there are never more vacant places than
places. Calls only fail by being refused, and wherever a run calls the simulator, each allocated
qubit has its partition.
-/

namespace SparseQuantum

set_option autoImplicit false

variable {R : Type} [Scalar R]

open SparseQuantum.Action

/-! ### Simulators whose accesses are in bounds -/

namespace Simulator

variable {simulator : Simulator R}

/-- What the calls look up is there. -/
structure InBounds (simulator : Simulator R) : Prop where
  /-- The slots of accepted operands, and the first positions, to which plugins and dumps bring
  them. -/
  operands {qubits : List QubitId} {slots : List Nat}
    (accepted : simulator.slotsOf [] qubits = .ok slots) :
    BasisState.checkPositions slots = .ok () ∧
      BasisState.checkPositions (List.range qubits.length) = .ok ()
  owned {qubit : QubitId} {slot : Nat} (accepted : simulator.slotOf qubit = .ok slot) :
    ∃ place partition, simulator.arena.owner? slot = some place ∧
      simulator.arena.partition place = .ok partition ∧ simulator.partitionOf qubit = .ok partition
  counted : ∃ count, simulator.partitionCount = .ok count

theorem in_bounds_of_sound (sound : simulator.Sound) : simulator.InBounds := by
  have wellFormed := sound.unlimited
  constructor
  · intro qubits slots accepted
    have found : (simulator.underLimit width).Operands qubits slots :=
      (slots_of_operands simulator qubits slots).1 accepted
    have inside (slot : Nat) (member : slot ∈ slots) : slot < width :=
      wellFormed.allocated_lt_width (found.allocated member)
    refine ⟨BasisState.check_positions_ok inside, BasisState.check_positions_ok ?_⟩
    intro position before
    rw [List.mem_range, ← found.length] at before
    exact before.trans_le (Layout.length_le_width (found.distinct wellFormed) inside)
  · intro qubit slot accepted
    obtain ⟨place, partition, owner, stands, _, answer⟩ :=
      partition_of_allocated sound ((slot_of_eq_ok_iff simulator qubit slot).1 accepted)
    exact ⟨place, partition, owner, by rw [Arena.partition, stands], answer⟩
  · exact ⟨_, wellFormed.arena.count_eq_card⟩

/-! ### Calls that do not fault -/

/-- From simulators that arise the call only fails by being refused. -/
def FaultFree {α : Type} (call : Action R α) : Prop :=
  ∀ simulator stop after, simulator.Arises → call simulator = .error stop after →
    ∃ error, stop = .refused error

theorem fault_free_of_refused_on {α : Type} {call : Action R α}
    {grounds : Simulator R → SimulatorError → Prop}
    (refused : ∀ simulator, simulator.Sound → RefusedOn call simulator (grounds simulator)) :
    FaultFree call := by
  intro simulator stop after arises stopped
  obtain ⟨error, _, stops, _⟩ :=
    (refused simulator (arises_sound arises) stop after).1 stopped
  exact ⟨error, stops⟩

theorem bind_fault_free {α β : Type} {first : Action R α} {next : α → Action R β}
    (preserves : Preserves Arises first) (here : FaultFree first)
    (later : ∀ value, FaultFree (next value)) : FaultFree (first >>= next) := by
  intro simulator stop after arises stopped
  have kept := preserves simulator arises
  rcases bind_ends stopped with ⟨_, _, stopped, same⟩ | ⟨value, middle, done, onward⟩
  · cases same
    exact here simulator stop after arises stopped
  · rw [done] at kept
    exact later value middle stop after kept onward

theorem discard_fault_free {α : Type} {call : Action R α} (free : FaultFree call) :
    FaultFree (discard call : Action R Unit) := by
  intro simulator stop after arises stopped
  rcases bind_ends stopped with ⟨_, _, stopped, same⟩ | ⟨_, _, _, absurdity⟩
  · cases same
    exact free simulator stop after arises stopped
  · cases absurdity

theorem set_register_fault_free (register : RegisterId) (value : Int64) :
    FaultFree (setRegister register value : Action R Unit) := by
  intro simulator stop after _ stopped
  cases stopped

theorem measure_all_fault_free (qubits : List QubitId) :
    FaultFree (Run.measureAll qubits : Action R (List Bool)) := by
  induction qubits with
  | nil =>
      intro simulator stop after _ stopped
      cases stopped
  | cons qubit rest ih =>
      refine bind_fault_free (preserves_of_discard (operation_preserves (.measure qubit)))
        (fault_free_of_refused_on fun _ sound => measure_refused_on sound qubit) fun bit => ?_
      refine bind_fault_free (Run.measure_all_preserves rest) ih fun bits => ?_
      intro simulator stop after _ stopped
      cases stopped

def Refuses (plugin : Plugin R) : Prop :=
  ∀ call left stop, plugin.run call = (left, .error stop) → ∃ error, stop = .refused error

theorem plugin_fault_free {plugin : Plugin R} (refuses : Refuses plugin) (targets : List QubitId)
    (arguments : String) (inverse : Bool) (controls : List QubitId) :
    FaultFree (applyPlugin plugin targets arguments inverse controls) := by
  intro simulator stop after arises stopped
  rcases (plugin_fails_iff (arises_sound arises) plugin targets arguments inverse controls stop
    after).1 stopped with ⟨error, _, stops, _⟩ | gaveUp
  · exact ⟨error, stops⟩
  · cases gaveUp with
    | dropped _ _ _ _ _ answer => exact refuses _ _ _ answer

end Simulator

namespace AddConstant

theorem refuses : Simulator.Refuses (plugin : Plugin R) := by
  intro call left stop answer
  simp only [plugin] at answer
  cases transformed : transform call with
  | ok state =>
      rw [transformed] at answer
      cases answer
  | error failure =>
      rw [transformed] at answer
      cases answer
      exact ⟨_, rfl⟩

theorem register_in_bounds {call : PluginCall R} {state : SparseState R}
    (done : transform call = .ok state) :
    BasisState.checkPositions (List.range call.targets) = .ok () := by
  apply BasisState.check_positions_ok
  intro position before
  have fits : call.targets ≤ widestRegister := by
    by_contra wide
    rw [transform, if_pos (Nat.lt_of_not_le wide)] at done
    cases done
  have narrow : widestRegister ≤ width := by decide
  exact (List.mem_range.1 before).trans_le (fits.trans narrow)

end AddConstant

/-- The only plugin that is ever found is the one that adds a constant. -/
def Registry.OnlyAdds (registry : Registry R) : Prop :=
  ∀ name plugin, registry.resolve name = .ok plugin → plugin = AddConstant.plugin

theorem only_adds_of_search_path (searchPath : String) :
    (Registry.ofSearchPath searchPath : Registry R).OnlyAdds := by
  intro name plugin found
  unfold Registry.resolve at found
  simp only [Registry.ofSearchPath, Registry.register, Std.ExtTreeMap.getElem?_insert] at found
  by_cases same : compare (AddConstant.plugin : Plugin R).name name = .eq
  · simp only [if_pos same] at found
    cases found
    rfl
  · simp only [if_neg same] at found
    cases found

namespace Run

/-! ### Instructions and blocks -/

def FaultFree {α : Type} (run : Run R α) : Prop :=
  ∀ state fault after, state.simulator.Arises → run state ≠ .error (.fault fault) after

theorem bind_fault_free {α β : Type} {first : Run R α} {next : α → Run R β} (keeps : Keeps first)
    (here : FaultFree first) (later : ∀ value, FaultFree (next value)) :
    FaultFree (first >>= next) := by
  intro state fault after arises stopped
  have kept := keeps state arises
  rcases bind_ends stopped with ⟨_, left, stopped, same⟩ | ⟨value, middle, done, onward⟩
  · cases same
    exact here state fault after arises stopped
  · rw [done] at kept
    exact later value middle fault after kept onward

theorem perform_fault_free {α : Type} (site : Site R) {action : Action R α}
    (free : Simulator.FaultFree action) : FaultFree (perform site action) := by
  intro state fault after arises stopped
  unfold perform at stopped
  cases answer : action state.simulator with
  | ok value simulator =>
      rw [answer] at stopped
      cases stopped
  | error stop simulator =>
      obtain ⟨error, refused⟩ := free _ stop simulator arises answer
      rw [answer, refused] at stopped
      cases stopped

theorem get_fault_free {α : Type} {next : RunState R → Run R α}
    (later : ∀ state, FaultFree (next state)) : FaultFree (get >>= next) :=
  fun state fault after arises => later state state fault after arises

theorem note_call_fault_free (name : String) (call : Option (PluginCall R)) :
    FaultFree (noteCall name call) := by
  intro state fault after _ stopped
  cases call <;> cases stopped

theorem execute_fault_free {registry : Registry R} (onlyAdds : registry.OnlyAdds) (label : String)
    (instruction : Instruction R) : FaultFree (execute registry label instruction) := by
  have sets (instruction : Instruction R) (register : RegisterId) (value : Int64) :
      FaultFree (perform ⟨label, instruction⟩ (setRegister register value)) :=
    perform_fault_free _ (Simulator.set_register_fault_free register value)
  cases instruction with
  | alloc qubit dirty =>
      exact perform_fault_free _ (Simulator.fault_free_of_refused_on fun _ sound =>
        Simulator.alloc_refused_on sound qubit dirty)
  | free qubit dirty =>
      exact perform_fault_free _ (Simulator.fault_free_of_refused_on fun _ sound =>
        Simulator.free_refused_on sound qubit dirty)
  | gate gate target controls =>
      exact perform_fault_free _ (Simulator.fault_free_of_refused_on fun _ sound =>
        Simulator.gate_refused_on sound gate target controls)
  | measure qubits register =>
      exact perform_fault_free _ (Simulator.bind_fault_free (measure_all_preserves qubits)
        (Simulator.measure_all_fault_free qubits) fun bits =>
          Simulator.set_register_fault_free register _)
  | dump qubits =>
      exact perform_fault_free _ (Simulator.discard_fault_free
        (Simulator.fault_free_of_refused_on fun _ sound =>
          Simulator.dump_refused_on sound qubits))
  | plugin name targets arguments inverse controls =>
      unfold execute
      dsimp only
      -- The registry's answer tells which plugin is applied, if one is.
      cases found : registry.resolve name with
      | error error =>
          intro state fault after _ stopped
          cases stopped
      | ok plugin =>
          change FaultFree (perform _ (Simulator.applyPlugin plugin targets arguments inverse
            controls) >>= noteCall name)
          rw [onlyAdds name plugin found]
          refine bind_fault_free (perform_keeps _ (preserves_of_discard (operation_preserves
            (.plugin AddConstant.plugin targets arguments inverse controls)))) ?_
            (note_call_fault_free name)
          exact perform_fault_free _ (Simulator.plugin_fault_free AddConstant.refuses targets
            arguments inverse controls)
  | constant register value => exact sets (.constant register value) register value
  | move target source => exact get_fault_free fun _ => sets _ target _
  | binary operator target left right =>
      apply get_fault_free
      intro state
      dsimp only
      cases operator.apply (state.simulator.register left) (state.simulator.register right) with
      | ok value => exact sets _ target value
      | error error =>
          intro state fault after _ stopped
          cases stopped
  | unary operator target source => exact get_fault_free fun _ => sets _ target _

theorem execute_all_fault_free {registry : Registry R} (onlyAdds : registry.OnlyAdds)
    (label : String) (instructions : List (Instruction R)) :
    FaultFree (executeAll registry label instructions) := by
  induction instructions with
  | nil =>
      intro state fault after _ stopped
      cases stopped
  | cons instruction rest ih =>
      exact bind_fault_free (execute_keeps registry label instruction)
        (execute_fault_free onlyAdds label instruction) fun _ => ih

omit [Scalar R] in
/-- The block that follows is that of a label. -/
theorem follows_label {labels : List String} {ending : Ending} {block : GraphBlock R}
    (resolves : ending.ResolvesTo labels block.successor) {simulator : Simulator R} {next : Nat}
    (follows : successor block simulator = some next) :
    ∃ label, labels.idxOf? label = some next := by
  unfold successor at follows
  generalize block.successor = choice at resolves follows
  cases resolves with
  | stop => cases follows
  | jump found =>
      cases follows
      exact ⟨_, found⟩
  | branch foundNonzero foundZero =>
      cases follows
      split
      · exact ⟨_, foundNonzero⟩
      · exact ⟨_, foundZero⟩

omit [Scalar R] in
theorem successor_lt {program : Program R} {graph : BlockGraph R}
    (resolves : program.ResolvesTo graph) {number next : Nat} {block : GraphBlock R}
    (found : graph.blocks[number]? = some block) {simulator : Simulator R}
    (follows : successor block simulator = some next) : next < graph.blocks.length := by
  obtain ⟨bound, rfl⟩ := List.getElem?_eq_some_iff.1 found
  have source := resolves.blocks.get (resolves.blocks.length_eq ▸ bound) bound
  obtain ⟨label, listed⟩ := follows_label source.ending follows
  exact resolves.number_lt listed

theorem loop_fault_free {program : Program R} {graph : BlockGraph R}
    (resolves : program.ResolvesTo graph) {registry : Registry R} (onlyAdds : registry.OnlyAdds)
    {budget number : Nat} {state : RunState R} {outcome : Outcome R}
    (inGraph : number < graph.blocks.length) (arises : state.simulator.Arises)
    (ended : loop graph registry budget number state = some outcome) (fault : Fault) :
    outcome.result ≠ .error (.fault fault) := by
  -- The invariant is that the block exists and that the simulator arises.
  induction budget generalizing number state with
  | zero => cases ended
  | succ budget ih =>
      have kept := step_keeps graph registry number state arises
      have ends := step_outcome graph registry number state
      unfold loop at ended
      generalize step graph registry number state = result at ended ends kept
      cases ends with
      | missing nothing =>
          rw [List.getElem?_eq_getElem inGraph] at nothing
          cases nothing
      | stopped found stopped =>
          cases ended
          intro faulted
          cases faulted
          exact execute_all_fault_free onlyAdds _ _ state fault _ arises stopped
      | @passed block after found done =>
          by_cases last : number = graph.last
          · rw [if_pos last] at ended
            cases ended
            exact fun absurdity => by cases absurdity
          · rw [if_neg last] at ended
            cases follows : successor block after.simulator with
            | none =>
                rw [follows] at ended
                cases ended
                exact fun absurdity => by cases absurdity
            | some next =>
                rw [follows] at ended
                exact ih (successor_lt resolves found follows) kept ended

theorem arises_of_reaches {graph : BlockGraph R} {registry : Registry R} {number : Nat}
    {state before : RunState R} {sites : List (Site R)} {site : Site R}
    (reaches : Reaches graph registry number state sites site before)
    (arises : state.simulator.Arises) : before.simulator.Arises := by
  have kept := execute_sites_keeps registry sites state arises
  rw [execute_sites_of_reaches reaches] at kept
  exact kept

theorem in_bounds_of_arises {simulator : Simulator R} (arises : simulator.Arises) :
    simulator.InBounds :=
  Simulator.in_bounds_of_sound (Simulator.arises_sound arises)

/-- A program that resolves, run with no plugin but the one that adds a constant from a simulator
that arises, does not fault after any number of blocks. Every instruction that it comes to finds the
simulator in bounds and does not fault; a measurement of several qubits finds it so at each of them,
and so does what comes after the run. -/
theorem accepted_programs_never_fault {program : Program R} {graph : BlockGraph R}
    (resolved : program.resolve = .ok graph) {registry : Registry R}
    (onlyAdds : registry.OnlyAdds) {state : RunState R} (arises : state.simulator.Arises) :
    (∀ budget outcome, loop graph registry budget graph.entry state = some outcome →
      (∀ fault, outcome.result ≠ .error (.fault fault)) ∧ outcome.state.simulator.InBounds) ∧
    (∀ sites site before, Reaches graph registry graph.entry state sites site before →
      before.simulator.InBounds ∧
      (∀ fault after, execute registry site.label site.instruction before ≠
        .error (.fault fault) after) ∧
      ∀ earlier later register bits middle,
        site.instruction = .measure (earlier ++ later) register →
          measureAll earlier before.simulator = .ok bits middle → middle.InBounds) ∧
    (∀ (call : PluginCall R) left, AddConstant.transform call = .ok left →
      BasisState.checkPositions (List.range call.targets) = .ok ()) ∧
    ∀ (machine : Machine R) settings budget report, machine.graph = graph →
      (machine.prepare settings).registry = registry → settings.InForce →
      machine.run settings budget = some report →
        (∀ fault, report.result ≠ .error (.fault fault)) ∧ report.machine.simulator.InBounds := by
  have resolves := Program.resolves_to_of_ok resolved
  have inGraph := resolves.number_lt resolves.entry_found
  refine ⟨?_, ?_, fun _ _ => AddConstant.register_in_bounds, ?_⟩
  · intro budget outcome ended
    exact ⟨loop_fault_free resolves onlyAdds inGraph arises ended,
      in_bounds_of_arises (loop_keeps ended arises)⟩
  · intro sites site before reaches
    have here := arises_of_reaches reaches arises
    refine ⟨in_bounds_of_arises here,
      fun fault after => execute_fault_free onlyAdds _ _ before fault after here, ?_⟩
    intro earlier later register bits middle _ measured
    have kept := measure_all_preserves earlier before.simulator here
    rw [measured] at kept
    exact in_bounds_of_arises kept
  · intro machine settings budget report sameGraph sameRegistry inForce ended
    obtain ⟨outcome, looped, result, simulator⟩ := Machine.run_eq_some ended
    have begins := Machine.start_arises inForce machine
    rw [sameGraph, sameRegistry] at looped
    rw [← result, ← simulator]
    exact ⟨loop_fault_free resolves onlyAdds inGraph begins looped,
      in_bounds_of_arises (loop_keeps looped begins)⟩

end Run

namespace Machine

/-- Counts a register of two qubits up and starts again until it holds 0. -/
def counter : Program Float where
  entry := "count"
  blocks :=
    [⟨"count", [.alloc ⟨0⟩ false, .alloc ⟨1⟩ false, .gate "x" [] ⟨1⟩ [],
        .plugin "add" [⟨0⟩, ⟨1⟩] "1" false [], .measure [⟨0⟩, ⟨1⟩] ⟨0⟩, .free ⟨0⟩ false,
        .free ⟨1⟩ false], .branch ⟨0⟩ "count" "done"⟩,
      ⟨"done", [], .stop⟩]

def counterGraph : BlockGraph Float where
  blocks :=
    [⟨"count", [.alloc ⟨0⟩ false, .alloc ⟨1⟩ false, .gate .x ⟨1⟩ [],
        .plugin "add" [⟨0⟩, ⟨1⟩] "1" false [], .measure [⟨0⟩, ⟨1⟩] ⟨0⟩, .free ⟨0⟩ false,
        .free ⟨1⟩ false], .branch ⟨0⟩ 0 1⟩,
      ⟨"done", [], .stop⟩]
  entry := 0
  last := 1

def counterStart : RunState Float := ⟨(Simulator.ofSeed width 7).withMaxQubits 2, []⟩

theorem counter_never_faults :
    counter.resolve = .ok counterGraph ∧ counterStart.simulator.Arises ∧
      (Run.loop counterGraph (.ofSearchPath "plugins") 3 0 counterStart).isNone = true ∧
      ∀ budget outcome, Run.loop counterGraph (.ofSearchPath "plugins") budget 0 counterStart =
        some outcome →
        (∀ fault, outcome.result ≠ .error (.fault fault)) ∧
          outcome.state.simulator.InBounds := by
  have resolved : counter.resolve = .ok counterGraph := by cbv
  have arises : counterStart.simulator.Arises :=
    .limited (.seeded (.started (fun _ => none) "plugins" "dumps" 7) 7) 2
  exact ⟨resolved, arises, by decide +kernel,
    (Run.accepted_programs_never_fault resolved (only_adds_of_search_path "plugins") arises).1⟩

end Machine

end SparseQuantum
