import Mathlib
import SparseQuantum.Proofs.NeverFaults
import SparseQuantum.Proofs.ProgramRuns
import SparseQuantum.Proofs.RenamedQubits

/-!
# Runs under new names

Two graphs are the same under new names if their blocks can be matched so that matched blocks have
the renamed label, the renamed instructions and matched successors. Their runs go side by side block
by block: after every number of blocks both go on at matched blocks, or both have ended the same
way, with simulators that differ in the names of the qubits only.
-/

namespace SparseQuantum

set_option autoImplicit false

variable {R : Type}

/-! ### Failures -/

def Instruction.rename (names : Renaming) : Instruction R → Instruction R
  | alloc qubit dirty => alloc (names.qubit qubit) dirty
  | free qubit dirty => free (names.qubit qubit) dirty
  | gate applied target controls =>
      gate applied (names.qubit target) (controls.map names.qubit)
  | measure qubits register => measure (qubits.map names.qubit) register
  | dump qubits => dump (qubits.map names.qubit)
  | plugin name targets arguments inverse controls =>
      plugin name (targets.map names.qubit) arguments inverse (controls.map names.qubit)
  | constant register value => constant register value
  | move target source => move target source
  | binary operator target left right => binary operator target left right
  | unary operator target source => unary operator target source

def Cause.rename (names : Renaming) : Cause → Cause
  | simulation error => simulation (error.rename names)
  | arithmetic error => arithmetic error

def Interruption.rename (names : Renaming) : Interruption R → Interruption R
  | failure label instruction cause =>
      failure (names.label label) (instruction.rename names) (cause.rename names)
  | fault reason => fault reason

/-- The instruction calls a plugin that gives this refusal as its own answer. -/
inductive Instruction.Answers (registry : Registry R) : Instruction R → SimulatorError → Prop where
  | plugin {name arguments : String} {targets controls : List QubitId} {inverse : Bool}
      {plugin : Plugin R} {call : PluginCall R} {error : SimulatorError}
      (resolved : registry.resolve name = .ok plugin)
      (own : (plugin.run call).2 = .error (.refused error)) :
      Answers registry (.plugin name targets arguments inverse controls) error

/-- The same interruption under new names, but for what a plugin answers itself. -/
inductive Interruption.UnderNames (names : Renaming) (registry : Registry R) :
    Interruption R → Interruption R → Prop where
  | renamed (interruption : Interruption R) :
      UnderNames names registry interruption (interruption.rename names)
  | answered {label : String} {instruction : Instruction R} {error : SimulatorError}
      (own : instruction.Answers registry error) :
      UnderNames names registry (.failure label instruction (.simulation error))
        (.failure (names.label label) (instruction.rename names) (.simulation error))

/-- No plugin of the registry names a qubit in what it answers itself. -/
def Registry.NamesNoQubits (registry : Registry R) : Prop :=
  ∀ name plugin call error, registry.resolve name = .ok plugin →
    (plugin.run call).2 = .error (.refused error) → ∀ names, error.rename names = error

theorem Interruption.UnderNames.eq_rename {names : Renaming} {registry : Registry R}
    {left right : Interruption R} (same : left.UnderNames names registry right)
    (nameless : registry.NamesNoQubits) : right = left.rename names := by
  cases same with
  | renamed => rfl
  | answered own =>
      cases own with
      | plugin resolved own =>
          have kept := nameless _ _ _ _ resolved own names
          rw [rename, Cause.rename, kept]

theorem Registry.OnlyAdds.names_no_qubits [Scalar R] {registry : Registry R}
    (only : registry.OnlyAdds) : registry.NamesNoQubits := by
  intro name plugin call error resolved own names
  rw [only name plugin resolved] at own
  simp only [AddConstant.plugin] at own
  cases transformed : AddConstant.transform call with
  | ok state =>
      rw [transformed] at own
      cases own
  | error failure =>
      rw [transformed] at own
      cases own
      rfl

/-! ### Instructions -/

structure RunState.UnderNames (names : Renaming) (left right : RunState R) : Prop where
  simulator : left.simulator.UnderNames names right.simulator
  calls : right.calls = left.calls

namespace Run

variable {names : Renaming} {registry : Registry R}

abbrev Alongside {α β : Type} (names : Renaming) (registry : Registry R) (values : α → β → Prop)
    (first : Run R α) (second : Run R β) : Prop :=
  SideBySide (Interruption.UnderNames names registry) (RunState.UnderNames names) values first
    second

theorem perform_alongside {α β : Type} {values : α → β → Prop} {label : String}
    {instruction : Instruction R} {answers : SimulatorError → Prop} {first : Action R α}
    {second : Action R β}
    (paired : SideBySide (Stop.UnderNames names answers) (Simulator.UnderNames names) values first
      second)
    (own : ∀ error, answers error → instruction.Answers registry error) :
    Alongside names registry values (perform ⟨label, instruction⟩ first)
      (perform ⟨names.label label, instruction.rename names⟩ second) := by
  intro left right states
  have ends := paired _ _ states.simulator
  unfold perform
  generalize first left.simulator = answer at ends ⊢
  generalize second right.simulator = reply at ends ⊢
  cases ends with
  | ok same simulators => exact .ok same ⟨simulators, states.calls⟩
  | error same simulators =>
      cases same with
      | refused error =>
          exact .error (.renamed (.failure label instruction (.simulation error)))
            ⟨simulators, states.calls⟩
      | answered known => exact .error (.answered (own _ known)) ⟨simulators, states.calls⟩
      | fault fault => exact .error (.renamed (.fault fault)) ⟨simulators, states.calls⟩

theorem perform_renamed {α β : Type} {values : α → β → Prop} {label : String}
    {instruction : Instruction R} {first : Action R α} {second : Action R β}
    (paired : SideBySide (Stop.UnderNames names fun _ => False) (Simulator.UnderNames names) values
      first second) :
    Alongside names registry values (perform ⟨label, instruction⟩ first)
      (perform ⟨names.label label, instruction.rename names⟩ second) :=
  perform_alongside paired fun _ absurdity => absurdity.elim

theorem note_call_alongside (name : String) (call : Option (PluginCall R)) :
    Alongside names registry Eq (noteCall name call) (noteCall name call) := by
  cases call with
  | none => exact SideBySide.of_pure rfl
  | some call =>
      exact SideBySide.of_modify fun left right states =>
        ⟨states.simulator, congrArg ((name, call) :: ·) states.calls⟩

theorem register_under_names {left right : RunState R} (states : left.UnderNames names right)
    (register : RegisterId) :
    right.simulator.register register = left.simulator.register register := by
  rw [Simulator.register, Simulator.register, states.simulator.registers]

theorem resolve_alongside (name : String) :
    SideBySide (Stop.UnderNames names fun _ => False) (Simulator.UnderNames names)
      (fun plugin other => other = plugin ∧ registry.resolve name = .ok plugin)
      (Action.orRefuse (registry.resolve name) : Action R _)
      (Action.orRefuse (registry.resolve name)) := by
  unfold Registry.resolve
  cases registry.plugins[name]? with
  | none => exact SideBySide.of_throw (.refused (.pluginNotFound name registry.searchPath))
  | some plugin => exact SideBySide.of_pure ⟨rfl, rfl⟩

theorem set_register_renamed (label : String) (instruction : Instruction R) (register : RegisterId)
    (value : Int64) :
    Alongside names registry Eq
      (perform ⟨label, instruction⟩ (Action.setRegister register value))
      (perform ⟨names.label label, instruction.rename names⟩
        (Action.setRegister register value)) :=
  perform_renamed (Simulator.set_register_alongside register value)

variable [Scalar R]

theorem measure_all_alongside {answers : SimulatorError → Prop}
    (apart : Function.Injective names.qubit) (qubits : List QubitId) :
    Simulator.Alongside names answers (measureAll qubits : Action R _)
      (measureAll (qubits.map names.qubit)) := by
  induction qubits with
  | nil => exact SideBySide.of_pure rfl
  | cons qubit rest induction =>
      refine (Simulator.measure_alongside apart qubit).bind_same fun bit => ?_
      exact induction.bind_same fun bits => SideBySide.of_pure rfl

theorem execute_alongside (apart : Function.Injective names.qubit) (label : String)
    (instruction : Instruction R) :
    Alongside names registry Eq (execute registry label instruction)
      (execute registry (names.label label) (instruction.rename names)) := by
  cases instruction with
  | alloc qubit dirty => exact perform_renamed (Simulator.alloc_alongside apart qubit dirty)
  | free qubit dirty => exact perform_renamed (Simulator.free_alongside apart qubit dirty)
  | gate applied target controls =>
      exact perform_renamed (Simulator.apply_gate_alongside apart applied target controls)
  | measure qubits register =>
      exact perform_renamed ((measure_all_alongside apart qubits).bind_same fun bits =>
        Simulator.set_register_alongside register _)
  | dump qubits =>
      exact perform_renamed ((Simulator.take_dump_alongside apart qubits).bind_same fun index =>
        SideBySide.of_pure rfl)
  | plugin name targets arguments inverse controls =>
      refine SideBySide.bind (perform_renamed (resolve_alongside name)) ?_
      intro plugin other ⟨same, resolved⟩
      rw [same]
      refine SideBySide.bind_same ?_ fun call => note_call_alongside name call
      refine perform_alongside (Simulator.apply_plugin_alongside apart plugin targets arguments
        inverse controls fun call error own => ?_) fun error own => own
      exact .plugin resolved own
  | constant register value =>
      exact set_register_renamed label (.constant register value) register value
  | move target source =>
      refine SideBySide.get_bind fun left right states => ?_
      rw [register_under_names states]
      exact set_register_renamed label (.move target source) target _
  | binary operator target left right =>
      refine SideBySide.get_bind fun before after states => ?_
      simp only
      rw [register_under_names states, register_under_names states]
      cases operator.apply (before.simulator.register left) (before.simulator.register right) with
      | ok value => exact set_register_renamed label (.binary operator target left right) target _
      | error error =>
          exact SideBySide.of_throw
            (.renamed (.failure label (.binary operator target left right) (.arithmetic error)))
  | unary operator target source =>
      refine SideBySide.get_bind fun left right states => ?_
      simp only
      rw [register_under_names states]
      exact set_register_renamed label (.unary operator target source) target _

theorem execute_all_alongside (apart : Function.Injective names.qubit) (label : String)
    (instructions : List (Instruction R)) :
    Alongside names registry Eq (executeAll registry label instructions)
      (executeAll registry (names.label label)
        (instructions.map (Instruction.rename names))) := by
  induction instructions with
  | nil => exact SideBySide.of_pure rfl
  | cons instruction rest induction =>
      exact (execute_alongside apart label instruction).bind_same fun _ => induction

end Run

/-! ### Graphs -/

inductive Successor.Matched (matched : Nat → Nat → Prop) : Successor → Successor → Prop where
  | jump {number other : Nat} (same : matched number other) :
      Matched matched (.jump number) (.jump other)
  | branch {register : RegisterId} {next onward other further : Nat} (nonzero : matched next onward)
      (zero : matched other further) :
      Matched matched (.branch register next other) (.branch register onward further)
  | stop : Matched matched .stop .stop

structure GraphBlock.UnderNames (names : Renaming) (matched : Nat → Nat → Prop)
    (left right : GraphBlock R) : Prop where
  label : right.label = names.label left.label
  instructions : right.instructions = left.instructions.map (Instruction.rename names)
  successor : left.successor.Matched matched right.successor

/-- The same graph under new names, with its blocks in another order. -/
structure BlockGraph.UnderNames (names : Renaming) (matched : Nat → Nat → Prop)
    (left right : BlockGraph R) : Prop where
  entry : matched left.entry right.entry
  blocks {number other : Nat} (same : matched number other) :
    ∃ block renamed, left.blocks[number]? = some block ∧ right.blocks[other]? = some renamed ∧
      block.UnderNames names matched renamed
  last {number other : Nat} (same : matched number other) :
    number = left.last ↔ other = right.last

namespace Run

variable {names : Renaming} {registry : Registry R} {matched : Nat → Nat → Prop}

theorem successor_under_names {left right : GraphBlock R} {before after : RunState R}
    (blocks : left.UnderNames names matched right) (states : before.UnderNames names after) :
    Option.Rel matched (successor left before.simulator) (successor right after.simulator) := by
  have goes := blocks.successor
  unfold successor
  generalize left.successor = here at goes
  generalize right.successor = there at goes
  cases goes with
  | jump same => exact .some same
  | branch nonzero zero =>
      simp only [register_under_names states]
      split_ifs
      · exact .some nonzero
      · exact .some zero
  | stop => exact .none

inductive Ends (names : Renaming) (registry : Registry R) :
    Except (Interruption R) Unit → Except (Interruption R) Unit → Prop where
  | success : Ends names registry (.ok ()) (.ok ())
  | interrupted {left right : Interruption R} (same : left.UnderNames names registry right) :
      Ends names registry (.error left) (.error right)

structure Outcome.UnderNames (names : Renaming) (registry : Registry R) (left right : Outcome R) :
    Prop where
  ends : Ends names registry left.result right.result
  state : left.state.UnderNames names right.state

variable [Scalar R] {left right : BlockGraph R}

theorem step_alongside (apart : Function.Injective names.qubit)
    (graphs : left.UnderNames names matched right) {number other : Nat}
    (same : matched number other) :
    Alongside names registry (Option.Rel matched) (step left registry number)
      (step right registry other) := by
  obtain ⟨block, renamed, found, there, blocks⟩ := graphs.blocks same
  unfold step
  simp only [found, there]
  rw [blocks.label, blocks.instructions]
  refine (execute_all_alongside apart block.label block.instructions).bind_same fun _ => ?_
  by_cases last : number = left.last
  · rw [if_pos last, if_pos ((graphs.last same).1 last)]
    exact SideBySide.of_pure .none
  · rw [if_neg last, if_neg fun ended => last ((graphs.last same).2 ended)]
    exact SideBySide.get_bind fun before after states =>
      SideBySide.of_pure (successor_under_names blocks states)

theorem loop_under_names (apart : Function.Injective names.qubit)
    (graphs : left.UnderNames names matched right) (budget : Nat) {number other : Nat}
    (same : matched number other) {before after : RunState R}
    (states : before.UnderNames names after) :
    Option.Rel (Outcome.UnderNames names registry) (loop left registry budget number before)
      (loop right registry budget other after) := by
  induction budget generalizing number other before after with
  | zero => exact .none
  | succ budget induction =>
      have ends : PairedEnds (Interruption.UnderNames names registry) (RunState.UnderNames names)
          (Option.Rel matched) (step left registry number before)
          (step right registry other after) :=
        step_alongside apart graphs same before after states
      unfold loop
      generalize step left registry number before = answer at ends ⊢
      generalize step right registry other after = reply at ends ⊢
      cases ends with
      | error same states => exact .some ⟨.interrupted same, states⟩
      | ok next states =>
          cases next with
          | none => exact .some ⟨.success, states⟩
          | some next => exact induction next states

end Run

/-! ### Machines -/

theorem rel_map {α β γ δ : Type} {before : α → β → Prop} {after : γ → δ → Prop} {left : Option α}
    {right : Option β} {change : α → γ} {other : β → δ} (paired : Option.Rel before left right)
    (keeps : ∀ first second, before first second → after (change first) (other second)) :
    Option.Rel after (left.map change) (right.map other) := by
  cases paired with
  | none => exact .none
  | some same => exact .some (keeps _ _ same)

theorem Simulator.of_seed_under_names (names : Renaming) (maxQubits : Nat) (seed : UInt64) :
    (ofSeed maxQubits seed : Simulator R).UnderNames names (ofSeed maxQubits seed) where
  arena := rfl
  allocation _ := rfl
  freeSlots := rfl
  parkedSlots := rfl
  nextSlot := rfl
  maxQubits := rfl
  registers := rfl
  bits _ := rfl
  dumps := rfl
  draws := rfl
  seed := rfl

theorem Run.Ends.eq_rename {names : Renaming} {registry : Registry R}
    {left right : Except (Interruption R) Unit} (same : Ends names registry left right)
    (nameless : registry.NamesNoQubits) :
    right = left.mapError (Interruption.rename names) := by
  cases same with
  | success => rfl
  | interrupted same => exact congrArg Except.error (same.eq_rename nameless)

namespace Machine

structure Report.UnderNames (names : Renaming) (left right : Report R) : Prop where
  ends : Run.Ends names left.machine.registry left.result right.result
  /-- What ended the run is renamed throughout, unless a plugin names qubits itself. -/
  result : left.machine.registry.NamesNoQubits →
    right.result = left.result.mapError (Interruption.rename names)
  simulator : left.machine.simulator.UnderNames names right.machine.simulator
  calls : right.calls = left.calls
  /-- Seed and registry are the same. -/
  rest : right.machine = { left.machine with
    graph := right.machine.graph, simulator := right.machine.simulator }

/-- The machines with both graphs report the same under new names, or neither run ends within the
budget. -/
theorem run_under_names [Scalar R] {names : Renaming} (apart : Function.Injective names.qubit)
    {matched : Nat → Nat → Prop} (machine : Machine R) {other : BlockGraph R}
    (graphs : machine.graph.UnderNames names matched other) (settings : Settings) (budget : Nat) :
    Option.Rel (Report.UnderNames names) (machine.run settings budget)
      ({ machine with graph := other }.run settings budget) := by
  have begins : (machine.start settings).UnderNames names
      ({ machine with graph := other }.start settings) :=
    ⟨Simulator.of_seed_under_names names _ _, rfl⟩
  have looped : Option.Rel (Run.Outcome.UnderNames names (machine.prepare settings).registry) _ _ :=
    Run.loop_under_names apart graphs budget graphs.entry begins
  exact rel_map looped fun first second same => ⟨same.ends, same.ends.eq_rename,
    same.state.simulator, congrArg List.reverse same.state.calls, rfl⟩

end Machine

end SparseQuantum
