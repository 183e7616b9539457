import Mathlib
import SparseQuantum.Machine
import SparseQuantum.Proofs.ChangingLimit

/-!
# Runs of programs

Every instruction is a few operations of the simulator, so a run leads only to simulators that
operations lead to. A run that fails has executed the instructions before the failing one, in the
order in which the program comes to them, and then the failing one.
-/

namespace SparseQuantum

set_option autoImplicit false

variable {R : Type}

theorem bind_ends {ε σ α β : Type} {first : EStateM ε σ α} {next : α → EStateM ε σ β} {before : σ}
    {result : EStateM.Result ε σ β} (ends : (first >>= next) before = result) :
    (∃ stop after, first before = .error stop after ∧ result = .error stop after) ∨
      ∃ value middle, first before = .ok value middle ∧ next value middle = result := by
  change EStateM.bind first next before = result at ends
  unfold EStateM.bind at ends
  cases answer : first before with
  | ok value middle =>
      rw [answer] at ends
      exact Or.inr ⟨value, middle, rfl, ends⟩
  | error stop after =>
      rw [answer] at ends
      exact Or.inl ⟨stop, after, rfl, ends.symm⟩

/-- The state that is left, however the action ends. -/
def stateLeft {ε σ α : Type} : EStateM.Result ε σ α → σ
  | .ok _ after => after
  | .error _ after => after

def Preserves {ε σ α : Type} (holds : σ → Prop) (action : EStateM ε σ α) : Prop :=
  ∀ before, holds before → holds (stateLeft (action before))

theorem bind_preserves {ε σ α β : Type} {holds : σ → Prop} {first : EStateM ε σ α}
    {next : α → EStateM ε σ β} (here : Preserves holds first)
    (later : ∀ value, Preserves holds (next value)) : Preserves holds (first >>= next) := by
  intro before start
  have kept := here before start
  rcases bind_ends (rfl : (first >>= next) before = _) with
    ⟨stop, after, stopped, ends⟩ | ⟨value, middle, done, ends⟩
  · rw [stopped] at kept
    rw [ends]
    exact kept
  · rw [done] at kept
    rw [← ends]
    exact later value middle kept

variable [Scalar R]

open Simulator

open SparseQuantum.Action

/-! ### Simulators along a run -/

omit [Scalar R] in
theorem state_left_eq {α : Type} (result : EStateM.Result Stop (Simulator R) α) :
    stateLeft result = leaves result := by
  cases result <;> rfl

theorem operation_preserves (operation : Operation R) : Preserves Arises operation.perform := by
  intro before arises
  rw [state_left_eq]
  exact arises.performed operation

theorem preserves_of_discard {α : Type} {action : Action R α}
    (discarded : Preserves Arises (discard action : Action R Unit)) : Preserves Arises action := by
  intro before arises
  rw [state_left_eq, ← Operation.leaves_discard, ← state_left_eq]
  exact discarded before arises

theorem or_refuse_preserves {α : Type} (result : Except SimulatorError α) :
    Preserves Arises (orRefuse result : Action R α) := by
  intro before arises
  cases result with
  | ok value => exact arises
  | error error => exact arises

namespace Run

theorem measure_all_preserves (qubits : List QubitId) :
    Preserves Arises (measureAll qubits : Action R (List Bool)) := by
  induction qubits with
  | nil => exact fun _ arises => arises
  | cons qubit rest ih =>
      apply bind_preserves (preserves_of_discard (operation_preserves (.measure qubit)))
      intro bit
      exact bind_preserves ih fun _ _ arises => arises

def Keeps {α : Type} (run : Run R α) : Prop := Preserves (fun state => state.simulator.Arises) run

theorem perform_keeps {α : Type} (site : Site R) {action : Action R α}
    (preserves : Preserves Arises action) : Keeps (perform site action) := by
  intro state arises
  have kept := preserves state.simulator arises
  unfold perform
  cases answer : action state.simulator with
  | ok value simulator =>
      rw [answer] at kept
      exact kept
  | error stop simulator =>
      rw [answer] at kept
      cases stop with
      | refused error => exact kept
      | fault fault => exact kept

theorem get_keeps {α : Type} {next : RunState R → Run R α}
    (later : ∀ state, Keeps (next state)) : Keeps (get >>= next) :=
  bind_preserves (fun _ arises => arises) later

theorem throw_keeps {α : Type} (interruption : Interruption R) :
    Keeps (throw interruption : Run R α) :=
  fun _ arises => arises

theorem note_call_keeps (name : String) (call : Option (PluginCall R)) :
    Keeps (noteCall name call) := by
  cases call with
  | none => exact fun _ arises => arises
  | some call => exact fun _ arises => arises

theorem execute_keeps (registry : Registry R) (label : String) (instruction : Instruction R) :
    Keeps (execute registry label instruction) := by
  have sets (register : RegisterId) (value : Int64) :
      Preserves Arises (setRegister register value : Action R Unit) :=
    operation_preserves (.setRegister register value)
  cases instruction with
  | alloc qubit dirty => exact perform_keeps _ (operation_preserves (.alloc qubit dirty))
  | free qubit dirty => exact perform_keeps _ (operation_preserves (.free qubit dirty))
  | gate gate target controls =>
      exact perform_keeps _ (operation_preserves (.gate gate target controls))
  | measure qubits register =>
      exact perform_keeps _ (bind_preserves (measure_all_preserves qubits)
        fun bits => sets register (packBits bits).toInt64)
  | dump qubits => exact perform_keeps _ (operation_preserves (.dump qubits))
  | plugin name targets arguments inverse controls =>
      apply bind_preserves (perform_keeps _ (or_refuse_preserves (registry.resolve name)))
      intro plugin
      apply bind_preserves
      · exact perform_keeps _ (preserves_of_discard
          (operation_preserves (.plugin plugin targets arguments inverse controls)))
      · exact note_call_keeps name
  | constant register value =>
      exact perform_keeps ⟨label, .constant register value⟩ (sets register value)
  | move target source => exact get_keeps fun _ => perform_keeps _ (sets target _)
  | binary operator target left right =>
      apply get_keeps
      intro state
      dsimp only
      cases operator.apply (state.simulator.register left) (state.simulator.register right) with
      | ok value => exact perform_keeps _ (sets target value)
      | error error => exact throw_keeps _
  | unary operator target source => exact get_keeps fun _ => perform_keeps _ (sets target _)

/-- Executes instructions that may stand in different blocks. -/
def executeSites (registry : Registry R) : List (Site R) → Run R Unit
  | [] => pure ()
  | site :: rest => do
      execute registry site.label site.instruction
      executeSites registry rest

theorem execute_sites_of_block (registry : Registry R) (label : String)
    (instructions : List (Instruction R)) :
    executeSites registry (instructions.map (Site.mk label)) =
      executeAll registry label instructions := by
  induction instructions with
  | nil => rfl
  | cons instruction rest ih =>
      rw [List.map_cons, executeSites, executeAll, ih]

theorem execute_sites_keeps (registry : Registry R) (sites : List (Site R)) :
    Keeps (executeSites registry sites) := by
  induction sites with
  | nil => exact fun _ arises => arises
  | cons site rest ih =>
      exact bind_preserves (execute_keeps registry site.label site.instruction) fun _ => ih

theorem execute_all_keeps (registry : Registry R) (label : String)
    (instructions : List (Instruction R)) : Keeps (executeAll registry label instructions) := by
  rw [← execute_sites_of_block]
  exact execute_sites_keeps registry _

/-- How a block ends: it is missing, one of its instructions stops the run, or all are executed. -/
inductive StepOutcome (graph : BlockGraph R) (registry : Registry R) (number : Nat)
    (state : RunState R) : EStateM.Result (Interruption R) (RunState R) (Option Nat) → Prop where
  | missing (nothing : graph.blocks[number]? = none) :
      StepOutcome graph registry number state (.error (.fault (.block number)) state)
  | stopped {block : GraphBlock R} {interruption : Interruption R} {after : RunState R}
      (found : graph.blocks[number]? = some block)
      (stopped : executeAll registry block.label block.instructions state =
        .error interruption after) :
      StepOutcome graph registry number state (.error interruption after)
  | passed {block : GraphBlock R} {after : RunState R}
      (found : graph.blocks[number]? = some block)
      (done : executeAll registry block.label block.instructions state = .ok () after) :
      StepOutcome graph registry number state
        (.ok (if number = graph.last then none else successor block after.simulator) after)

theorem step_outcome (graph : BlockGraph R) (registry : Registry R) (number : Nat)
    (state : RunState R) :
    StepOutcome graph registry number state (step graph registry number state) := by
  unfold step
  cases found : graph.blocks[number]? with
  | none => exact .missing found
  | some block =>
      change StepOutcome graph registry number state
        (EStateM.bind (executeAll registry block.label block.instructions) _ state)
      unfold EStateM.bind
      cases answer : executeAll registry block.label block.instructions state with
      | error interruption after => exact .stopped found answer
      | ok _ after =>
          have passed := StepOutcome.passed found answer
          by_cases last : number = graph.last
          · rw [if_pos last] at passed
            simp only [if_pos last]
            exact passed
          · rw [if_neg last] at passed
            simp only [if_neg last]
            exact passed

theorem step_keeps (graph : BlockGraph R) (registry : Registry R) (number : Nat) :
    Keeps (step graph registry number) := by
  intro state arises
  have outcome := step_outcome graph registry number state
  generalize step graph registry number state = result at outcome
  cases outcome with
  | missing _ => exact arises
  | @stopped block _ _ _ stopped =>
      have kept := execute_all_keeps registry block.label block.instructions state arises
      rw [stopped] at kept
      exact kept
  | @passed block _ _ done =>
      have kept := execute_all_keeps registry block.label block.instructions state arises
      rw [done] at kept
      exact kept

theorem loop_keeps {graph : BlockGraph R} {registry : Registry R} {budget number : Nat}
    {state : RunState R} {outcome : Outcome R}
    (ended : loop graph registry budget number state = some outcome)
    (arises : state.simulator.Arises) : outcome.state.simulator.Arises := by
  induction budget generalizing number state with
  | zero => cases ended
  | succ budget ih =>
      have kept := step_keeps graph registry number state arises
      unfold loop at ended
      cases answer : step graph registry number state with
      | ok next after =>
          rw [answer] at kept ended
          cases next with
          | none =>
              cases ended
              exact kept
          | some next => exact ih ended kept
      | error interruption after =>
          rw [answer] at kept ended
          cases ended
          exact kept

/-! ### Where a run fails -/

theorem execute_sites_append {registry : Registry R} {first second : List (Site R)}
    {state middle after : RunState R} (done : executeSites registry first state = .ok () middle)
    (later : executeSites registry second middle = .ok () after) :
    executeSites registry (first ++ second) state = .ok () after := by
  induction first generalizing state with
  | nil =>
      cases done
      exact later
  | cons site rest ih =>
      rw [executeSites] at done
      rcases bind_ends done with ⟨_, _, _, absurdity⟩ | ⟨_, next, here, onward⟩
      · cases absurdity
      · change EStateM.bind (execute registry site.label site.instruction) _ state = _
        rw [EStateM.bind, here]
        exact ih onward

/-- From the block of this number the run executes the sites in order and comes to a further one. -/
inductive Reaches (graph : BlockGraph R) (registry : Registry R) :
    Nat → RunState R → List (Site R) → Site R → RunState R → Prop where
  | inside {number : Nat} {block : GraphBlock R} {earlier later : List (Instruction R)}
      {instruction : Instruction R} {state before : RunState R}
      (found : graph.blocks[number]? = some block)
      (split : block.instructions = earlier ++ instruction :: later)
      (done : executeAll registry block.label earlier state = .ok () before) :
      Reaches graph registry number state (earlier.map (Site.mk block.label))
        ⟨block.label, instruction⟩ before
  | onward {number next : Nat} {block : GraphBlock R} {state middle before : RunState R}
      {sites : List (Site R)} {site : Site R} (found : graph.blocks[number]? = some block)
      (done : executeAll registry block.label block.instructions state = .ok () middle)
      (notLast : number ≠ graph.last) (follows : successor block middle.simulator = some next)
      (rest : Reaches graph registry next middle sites site before) :
      Reaches graph registry number state (block.instructions.map (Site.mk block.label) ++ sites)
        site before

theorem execute_sites_of_reaches {graph : BlockGraph R} {registry : Registry R} {number : Nat}
    {state before : RunState R} {sites : List (Site R)} {site : Site R}
    (reaches : Reaches graph registry number state sites site before) :
    executeSites registry sites state = .ok () before := by
  induction reaches with
  | inside _ _ done =>
      rw [execute_sites_of_block]
      exact done
  | onward _ done _ _ _ ih =>
      rw [← execute_sites_of_block] at done
      exact execute_sites_append done ih

/-- The first instruction to stop, with those before it. -/
theorem execute_all_stops {registry : Registry R} {label : String}
    {instructions : List (Instruction R)} {state after : RunState R}
    {interruption : Interruption R}
    (stopped : executeAll registry label instructions state = .error interruption after) :
    ∃ earlier instruction later before, instructions = earlier ++ instruction :: later ∧
      executeAll registry label earlier state = .ok () before ∧
      execute registry label instruction before = .error interruption after := by
  induction instructions generalizing state with
  | nil => cases stopped
  | cons instruction rest ih =>
      rw [executeAll] at stopped
      rcases bind_ends stopped with ⟨stop, left, here, same⟩ | ⟨_, middle, here, onward⟩
      · cases same
        exact ⟨[], instruction, rest, state, rfl, rfl, here⟩
      · obtain ⟨earlier, failing, later, before, split, done, last⟩ := ih onward
        refine ⟨instruction :: earlier, failing, later, before, by rw [split]; rfl, ?_, last⟩
        change EStateM.bind (execute registry label instruction) _ state = _
        rw [EStateM.bind, here]
        exact done

theorem loop_fails {graph : BlockGraph R} {registry : Registry R} {budget number : Nat}
    {state : RunState R} {outcome : Outcome R} {label : String} {instruction : Instruction R}
    {cause : Cause} (ended : loop graph registry budget number state = some outcome)
    (failed : outcome.result = .error (.failure label instruction cause)) :
    ∃ sites site before, Reaches graph registry number state sites site before ∧
      execute registry site.label site.instruction before =
        .error (.failure label instruction cause) outcome.state := by
  -- Either the block at hand fails, or it is passed and a later one of the remaining budget does.
  induction budget generalizing number state with
  | zero => cases ended
  | succ budget ih =>
      have ends := step_outcome graph registry number state
      unfold loop at ended
      generalize step graph registry number state = result at ended ends
      cases ends with
      | missing _ =>
          cases ended
          cases failed
      | stopped found stopped =>
          cases ended
          cases failed
          obtain ⟨earlier, failing, later, before, split, done, here⟩ := execute_all_stops stopped
          exact ⟨_, _, before, .inside found split done, here⟩
      | @passed block after found done =>
          by_cases last : number = graph.last
          · rw [if_pos last] at ended
            cases ended
            cases failed
          · rw [if_neg last] at ended
            cases follows : successor block after.simulator with
            | none =>
                rw [follows] at ended
                cases ended
                cases failed
            | some next =>
                rw [follows] at ended
                obtain ⟨sites, site, before, reaches, here⟩ := ih ended
                exact ⟨_, site, before, .onward found done last follows reaches, here⟩

end Run

namespace Machine

def start (machine : Machine R) (settings : Settings) : RunState R :=
  ⟨(machine.prepare settings).simulator, []⟩

theorem start_arises {settings : Settings} (inForce : settings.InForce) (machine : Machine R) :
    (machine.start settings).simulator.Arises :=
  .seeded inForce _

theorem run_eq_some {machine : Machine R} {settings : Settings} {budget : Nat} {report : Report R}
    (ended : machine.run settings budget = some report) :
    ∃ outcome, Run.loop machine.graph (machine.prepare settings).registry budget
        machine.graph.entry (machine.start settings) = some outcome ∧
      outcome.result = report.result ∧ outcome.state.simulator = report.machine.simulator := by
  unfold run at ended
  obtain ⟨outcome, looped, same⟩ := Option.map_eq_some_iff.1 ended
  rw [← same]
  exact ⟨outcome, looped, rfl, rfl⟩

end Machine

end SparseQuantum
