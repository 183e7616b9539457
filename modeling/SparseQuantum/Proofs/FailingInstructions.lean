import Mathlib
import SparseQuantum.Proofs.ProgramRuns
import SparseQuantum.Proofs.Refusals

/-!
# What a failing instruction leaves

When a run fails, the simulator is as the instructions before the failing one left it, up to the
grouping of a plugin's operands, unless the failing one measures several qubits. Such an instruction
measures the qubits before the missing one, and their bits, their collapse and the draws they took
stay.
-/

namespace SparseQuantum

set_option autoImplicit false

variable {R : Type} [Scalar R]

open Simulator

open SparseQuantum.Action

namespace Run

/-! ### Measuring up to a qubit that is missing -/

theorem measure_changes {before after : Simulator R} (sound : before.Sound) {qubit : QubitId}
    {bit : Bool} (done : measure qubit before = .ok bit after) :
    before.allocation[qubit]? ≠ none ∧ ∃ arena draws, after =
      { before with arena, draws, bits := before.bits.insert qubit bit } := by
  have outcome := measure_outcome_of_sound sound qubit
  rw [done] at outcome
  cases outcome with
  | measured found _ _ _ =>
      refine ⟨?_, _, _, rfl⟩
      rw [found]
      exact Option.some_ne_none _

theorem sound_of_measure {before after : Simulator R} (sound : before.Sound) {qubit : QubitId}
    {bit : Bool} (done : measure qubit before = .ok bit after) : after.Sound := by
  have kept := sound_perform sound (.measure qubit)
  rw [Operation.perform, Operation.leaves_discard, done] at kept
  exact kept

/-- Measuring several qubits changes what measuring one changes. -/
theorem measure_all_changes {before after : Simulator R} (sound : before.Sound)
    {qubits : List QubitId} {values : List Bool}
    (done : measureAll qubits before = .ok values after) :
    ∃ arena draws bits, after = { before with arena, draws, bits } := by
  induction qubits generalizing before values with
  | nil =>
      cases done
      exact ⟨_, _, _, rfl⟩
  | cons qubit rest ih =>
      rcases bind_ends done with ⟨_, _, _, absurdity⟩ | ⟨bit, middle, first, onward⟩
      · cases absurdity
      · rcases bind_ends onward with ⟨_, _, _, absurdity⟩ | ⟨others, last, later, ends⟩
        · cases absurdity
        · cases ends
          obtain ⟨_, arena, draws, here⟩ := measure_changes sound first
          obtain ⟨_, _, _, there⟩ := ih (sound_of_measure sound first) later
          rw [there, here]
          exact ⟨_, _, _, rfl⟩

/-- Measuring stops at the first qubit that is not allocated, with the earlier ones measured. -/
theorem measure_all_stops {before after : Simulator R} (sound : before.Sound)
    {qubits : List QubitId} {stop : Stop} (stopped : measureAll qubits before = .error stop after) :
    ∃ earlier qubit later values, qubits = earlier ++ qubit :: later ∧
      (∀ other ∈ earlier, before.allocation[other]? ≠ none) ∧
      before.allocation[qubit]? = none ∧ measureAll earlier before = .ok values after := by
  -- A measured qubit does not change who is allocated, so the first missing one is missing from
  -- the start.
  induction qubits generalizing before with
  | nil => cases stopped
  | cons qubit rest ih =>
      rcases bind_ends stopped with ⟨_, left, here, same⟩ | ⟨bit, middle, first, onward⟩
      · cases same
        obtain ⟨_, ⟨unknown, _⟩, _, unchanged⟩ := (measure_refused_on sound qubit _ _).1 here
        rw [unchanged]
        exact ⟨[], qubit, rest, [], rfl, fun _ member => absurd member List.not_mem_nil, unknown,
          rfl⟩
      · rcases bind_ends onward with ⟨_, left, later, same⟩ | ⟨_, _, _, absurdity⟩
        · cases same
          obtain ⟨present, arena, draws, changed⟩ := measure_changes sound first
          obtain ⟨earlier, missing, others, values, split, known, unknown, done⟩ :=
            ih (sound_of_measure sound first) later
          have table : middle.allocation = before.allocation := by rw [changed]
          rw [table] at known unknown
          refine ⟨qubit :: earlier, missing, others, bit :: values, by rw [split]; rfl, ?_,
            unknown, ?_⟩
          · intro other member
            rcases List.mem_cons.1 member with same | inEarlier
            · rw [same]
              exact present
            · exact known other inEarlier
          · rw [measureAll, bind_of_ok first, bind_of_ok done]
            rfl
        · cases absurdity

/-! ### One instruction -/

/-- What an instruction that fails on a simulator has made of it: nothing, but for a plugin that has
joined its operands, and for a measurement of the qubits before one that is not allocated. -/
inductive Residue (before : Simulator R) : Instruction R → Simulator R → Prop where
  | nothing {instruction : Instruction R}
      (unmeasured : ∀ qubits register, instruction ≠ .measure qubits register) :
      Residue before instruction before
  | regrouped {name arguments : String} {targets controls : List QubitId} {inverse : Bool}
      {place : Nat} {merged : Arena R} (merges : Arena.Merges place before.arena merged) :
      Residue before (.plugin name targets arguments inverse controls)
        { before with arena := merged }
  | measured {earlier later : List QubitId} {qubit : QubitId} {register : RegisterId}
      {values : List Bool} {after : Simulator R}
      (known : ∀ other ∈ earlier, before.allocation[other]? ≠ none)
      (unknown : before.allocation[qubit]? = none)
      (done : measureAll earlier before = .ok values after) :
      Residue before (.measure (earlier ++ qubit :: later) register) after

/-- Registers, dumps and the table of slots are never part of what is left behind. -/
theorem Residue.keeps {before after : Simulator R} (sound : before.Sound)
    {instruction : Instruction R} (residue : Residue before instruction after) :
    ∃ arena draws bits, after = { before with arena, draws, bits } := by
  cases residue with
  | nothing _ => exact ⟨_, _, _, rfl⟩
  | regrouped _ => exact ⟨_, _, _, rfl⟩
  | measured _ _ done => exact measure_all_changes sound done

section Failing

variable {instruction : Instruction R} {state after : RunState R} {interruption : Interruption R}
  {label : String}

/-- An instruction has failed: what it has left, and that it is the one to be named. -/
def FailsAt (label : String) (instruction : Instruction R) (before after : Simulator R)
    (interruption : Interruption R) : Prop :=
  Residue before instruction after ∧ ∀ named failing cause,
    interruption = .failure named failing cause → named = label ∧ failing = instruction

theorem perform_fails {α : Type} {action : Action R α}
    (stopped : perform ⟨label, instruction⟩ action state = .error interruption after)
    (residue : ∀ stop left, action state.simulator = .error stop left →
      Residue state.simulator instruction left) :
    FailsAt label instruction state.simulator after.simulator interruption := by
  unfold perform at stopped
  cases answer : action state.simulator with
  | ok value simulator =>
      rw [answer] at stopped
      cases stopped
  | error stop simulator =>
      have left := residue stop simulator answer
      rw [answer] at stopped
      cases stop with
      | refused error =>
          cases stopped
          refine ⟨left, fun named failing cause same => ?_⟩
          cases same
          exact ⟨rfl, rfl⟩
      | fault fault =>
          cases stopped
          refine ⟨left, fun named failing cause absurdity => ?_⟩
          cases absurdity

theorem perform_refused {α : Type} {action : Action R α} {grounds : SimulatorError → Prop}
    (refuses : RefusedOn action state.simulator grounds)
    (unmeasured : ∀ qubits register, instruction ≠ .measure qubits register)
    (stopped : perform ⟨label, instruction⟩ action state = .error interruption after) :
    FailsAt label instruction state.simulator after.simulator interruption := by
  apply perform_fails stopped
  intro stop left answer
  obtain ⟨_, _, _, same⟩ := (refuses stop left).1 answer
  rw [same]
  exact .nothing unmeasured

omit [Scalar R] in
theorem set_register_refused_on (simulator : Simulator R) (register : RegisterId) (value : Int64) :
    RefusedOn (setRegister register value) simulator fun _ => False :=
  refused_on_of_ok rfl fun _ => id

omit [Scalar R] in
theorem discard_refused_on {α : Type} {action : Action R α} {simulator : Simulator R}
    {grounds : SimulatorError → Prop} (refuses : RefusedOn action simulator grounds) :
    RefusedOn (discard action : Action R Unit) simulator grounds := by
  intro stop after
  rw [← refuses]
  change EStateM.map (Function.const α ()) action simulator = _ ↔ _
  unfold EStateM.map
  cases action simulator with
  | ok value left => simp
  | error other left => simp

omit [Scalar R] in
theorem or_refuse_refused_on {α : Type} (simulator : Simulator R)
    (result : Except SimulatorError α) :
    RefusedOn (orRefuse result) simulator fun error => result = .error error := by
  cases result with
  | ok value => exact refused_on_of_ok rfl (by simp)
  | error error => exact refused_on_of_error rfl (by simp [eq_comm])

theorem residue_of_measure {qubits : List QubitId} {register : RegisterId}
    (sound : state.simulator.Sound) (stop : Stop) (left : Simulator R)
    (stopped : (measureAll qubits >>= fun bits => setRegister register (packBits bits).toInt64)
      state.simulator = .error stop left) :
    Residue state.simulator (.measure qubits register) left := by
  rcases bind_ends stopped with ⟨_, _, here, same⟩ | ⟨_, _, _, absurdity⟩
  · cases same
    obtain ⟨earlier, qubit, later, values, split, known, unknown, done⟩ :=
      measure_all_stops sound here
    rw [split]
    exact .measured known unknown done
  · cases absurdity

theorem residue_of_plugin {name : String} {plugin : Plugin R} {targets controls : List QubitId}
    {arguments : String} {inverse : Bool} (sound : state.simulator.Sound) (stop : Stop)
    (left : Simulator R)
    (stopped : applyPlugin plugin targets arguments inverse controls state.simulator =
      .error stop left) :
    Residue state.simulator (.plugin name targets arguments inverse controls) left := by
  rcases (plugin_fails_iff sound plugin targets arguments inverse controls stop left).1 stopped with
    ⟨_, _, _, same⟩ | gaveUp
  · rw [same]
    exact .nothing (by simp)
  · cases gaveUp with
    | dropped _ _ _ gathers _ _ => exact .regrouped gathers.merges

theorem execute_fails {registry : Registry R} (sound : state.simulator.Sound)
    (stopped : execute registry label instruction state = .error interruption after) :
    FailsAt label instruction state.simulator after.simulator interruption := by
  have sets (register : RegisterId) (value : Int64) :
      RefusedOn (setRegister register value) state.simulator fun _ => False :=
    set_register_refused_on state.simulator register value
  cases instruction with
  | alloc qubit dirty =>
      exact perform_refused (alloc_refused_on sound qubit dirty) (by simp) stopped
  | free qubit dirty =>
      exact perform_refused (free_refused_on sound qubit dirty) (by simp) stopped
  | gate gate target controls =>
      exact perform_refused (gate_refused_on sound gate target controls) (by simp) stopped
  | measure qubits register => exact perform_fails stopped (residue_of_measure sound)
  | dump qubits =>
      exact perform_refused (discard_refused_on (dump_refused_on sound qubits)) (by simp) stopped
  | plugin name targets arguments inverse controls =>
      rcases bind_ends stopped with ⟨_, _, missing, same⟩ | ⟨plugin, middle, resolved, onward⟩
      · cases same
        exact perform_refused (or_refuse_refused_on _ (registry.resolve name)) (by simp) missing
      · have same : middle = state := by
          cases found : registry.resolve name with
          | ok plugin =>
              rw [found] at resolved
              cases resolved
              rfl
          | error error =>
              rw [found] at resolved
              cases resolved
        rw [same] at onward
        rcases bind_ends onward with ⟨_, _, gaveUp, ends⟩ | ⟨call, _, _, noted⟩
        · cases ends
          exact perform_fails gaveUp (residue_of_plugin sound)
        · cases call with
          | none => cases noted
          | some call => cases noted
  | constant register value => exact perform_refused (sets register value) (by simp) stopped
  | move target source => exact perform_refused (sets target _) (by simp) stopped
  | binary operator target left right =>
      rcases bind_ends stopped with ⟨_, _, absurdity, _⟩ | ⟨_, _, read, onward⟩
      · cases absurdity
      · cases read
        dsimp only at onward
        cases computed : operator.apply (state.simulator.register left)
            (state.simulator.register right) with
        | ok value =>
            rw [computed] at onward
            exact perform_refused (sets target value) (by simp) onward
        | error error =>
            rw [computed] at onward
            cases onward
            refine ⟨.nothing (by simp), fun named failing cause same => ?_⟩
            cases same
            exact ⟨rfl, rfl⟩
  | unary operator target source => exact perform_refused (sets target _) (by simp) stopped

end Failing

end Run

/-! ### A whole run -/

namespace Machine

open SparseQuantum.Run

/-- The simulator of a failed run is what its completed instructions and then the failing one made
of a fresh one, and of the failing one only its residue is in it. -/
theorem failing_instruction_leaves {machine : Machine R} {settings : Settings} {budget : Nat}
    {report : Report R} {label : String} {instruction : Instruction R} {cause : Cause}
    (inForce : settings.InForce) (ended : machine.run settings budget = some report)
    (failed : report.result = .error (.failure label instruction cause)) :
    ∃ completed before after,
      Reaches machine.graph (machine.prepare settings).registry machine.graph.entry
        (machine.start settings) completed ⟨label, instruction⟩ before ∧
      executeSites (machine.prepare settings).registry completed (machine.start settings) =
        .ok () before ∧
      execute (machine.prepare settings).registry label instruction before =
        .error (.failure label instruction cause) after ∧
      after.simulator = report.machine.simulator ∧
      Residue before.simulator instruction report.machine.simulator ∧
      ∃ arena draws bits,
        report.machine.simulator = { before.simulator with arena, draws, bits } := by
  obtain ⟨outcome, looped, result, left⟩ := run_eq_some ended
  rw [← result] at failed
  obtain ⟨completed, site, before, reaches, stopped⟩ := loop_fails looped failed
  have executed := execute_sites_of_reaches reaches
  have arises := execute_sites_keeps (machine.prepare settings).registry completed _
    (start_arises inForce machine)
  rw [executed] at arises
  have sound : before.simulator.Sound := arises_sound arises
  obtain ⟨residue, names⟩ := execute_fails sound stopped
  obtain ⟨sameLabel, sameInstruction⟩ := names label instruction cause rfl
  have here : site = ⟨label, instruction⟩ := by rw [sameLabel, sameInstruction]
  rw [here] at reaches stopped residue
  rw [left] at residue
  exact ⟨completed, before, outcome.state, reaches, executed, stopped, left, residue,
    residue.keeps sound⟩

/-- Measures a qubit in superposition together with one that is not allocated. -/
def splitMeasurement : Program Float :=
  (Program.startingAt "main").block
    ((((Block.named "main").alloc ⟨0⟩).gate "H" ⟨0⟩).measure [⟨0⟩, ⟨1⟩] ⟨0⟩)

def plainSettings : Settings :=
  (SettingOverrides.ofLookup fun _ => none).applyTo ⟨"plugins", 7, "dumps", width⟩

def splitMachine : Machine Float :=
  ofGraph plainSettings ⟨[⟨"main", [.alloc ⟨0⟩ false, .gate .h ⟨0⟩ [],
    .measure [⟨0⟩, ⟨1⟩] ⟨0⟩], .stop⟩], 0, 0⟩

theorem of_split_measurement : ofProgram plainSettings splitMeasurement = .ok splitMachine := by
  have resolved : splitMeasurement.resolve = .ok splitMachine.graph := by cbv
  rw [ofProgram, resolved]
  rfl

def missed? : Except (Interruption R) Unit →
    Option (String × List QubitId × RegisterId × QubitId)
  | .error (.failure label (.measure qubits register) (.simulation (.notAllocated qubit))) =>
      some (label, qubits, register, qubit)
  | _ => none

omit [Scalar R] in
theorem eq_of_missed {result : Except (Interruption R) Unit} {label : String}
    {qubits : List QubitId} {register : RegisterId} {qubit : QubitId}
    (missed : missed? result = some (label, qubits, register, qubit)) :
    result = .error (.failure label (.measure qubits register)
      (.simulation (.notAllocated qubit))) := by
  unfold missed? at missed
  split at missed
  · cases missed
    rfl
  · cases missed

def firstQubit (simulator : Simulator Float) : Option Bool × Nat × Option Nat :=
  (simulator.bits[(⟨0⟩ : QubitId)]?, simulator.draws.taken,
    simulator.arena.partitions[0]?.map (·.state.entries.length))

theorem split_machine_fails :
    ∃ report, splitMachine.run plainSettings 1 = some report ∧
      report.result = .error (.failure "main" (.measure [⟨0⟩, ⟨1⟩] ⟨0⟩)
        (.simulation (.notAllocated ⟨1⟩))) ∧
      firstQubit report.machine.simulator = (some false, 1, some 1) := by
  have missed : (splitMachine.run plainSettings 1).map (fun report => missed? report.result) =
      some (some ("main", [⟨0⟩, ⟨1⟩], ⟨0⟩, ⟨1⟩)) := by
    decide +kernel
  have first : (splitMachine.run plainSettings 1).map
      (fun report => firstQubit report.machine.simulator) = some (some false, 1, some 1) := by
    decide +kernel
  obtain ⟨report, ended, observed⟩ := Option.map_eq_some_iff.1 missed
  rw [ended] at first
  exact ⟨report, ended, eq_of_missed observed, Option.some.inj first⟩

theorem split_machine_residue :
    ∃ report completed before, splitMachine.run plainSettings 1 = some report ∧
      executeSites (splitMachine.prepare plainSettings).registry completed
        (splitMachine.start plainSettings) = .ok () before ∧
      Residue before.simulator (.measure [⟨0⟩, ⟨1⟩] ⟨0⟩) report.machine.simulator ∧
      report.machine.simulator.registers = before.simulator.registers := by
  obtain ⟨report, ended, failed, _⟩ := split_machine_fails
  obtain ⟨completed, before, _, reaches, executed, _, _, residue, _, _, _, same⟩ :=
    failing_instruction_leaves (.started (fun _ => none) "plugins" "dumps" 7) ended failed
  exact ⟨report, completed, before, ended, executed, residue, by rw [same]⟩

/-- A failing measurement records a bit, takes a draw and collapses the state of the first qubit. -/
theorem failed_measurement_collapses :
    ofProgram plainSettings splitMeasurement = .ok splitMachine ∧
    ∃ report before, splitMachine.run plainSettings 1 = some report ∧
      report.result = .error (.failure "main" (.measure [⟨0⟩, ⟨1⟩] ⟨0⟩)
        (.simulation (.notAllocated ⟨1⟩))) ∧
      Reaches splitMachine.graph (splitMachine.prepare plainSettings).registry
        splitMachine.graph.entry (splitMachine.start plainSettings)
        [⟨"main", .alloc ⟨0⟩ false⟩, ⟨"main", .gate .h ⟨0⟩ []⟩]
        ⟨"main", .measure [⟨0⟩, ⟨1⟩] ⟨0⟩⟩ before ∧
      firstQubit before.simulator = (none, 0, some 2) ∧
      firstQubit report.machine.simulator = (some false, 1, some 1) := by
  obtain ⟨report, ended, failed, first⟩ := split_machine_fails
  let earlier : List (Instruction Float) := [.alloc ⟨0⟩ false, .gate .h ⟨0⟩ []]
  let before : RunState Float := stateLeft
    (executeAll (splitMachine.prepare plainSettings).registry "main" earlier
      (splitMachine.start plainSettings))
  have done : executeAll (splitMachine.prepare plainSettings).registry "main" earlier
      (splitMachine.start plainSettings) = .ok () before := by rfl
  have found : splitMachine.graph.blocks[0]? =
      some ⟨"main", earlier ++ [.measure [⟨0⟩, ⟨1⟩] ⟨0⟩], .stop⟩ := rfl
  refine ⟨of_split_measurement, report, before, ended, failed, ?_, ?_, first⟩
  · exact .inside found rfl done
  · decide +kernel

end Machine

end SparseQuantum
