import Mathlib
import SparseQuantum.Proofs.ProgramRuns
import SparseQuantum.Proofs.ResolvedGraphs

/-!
# Programs read by their labels

A program can be read without resolving it: begin at the block labelled as the entry, perform its
statements in order, each name looked up when its statement is performed, stop after a block that
ends with stop, and otherwise go on at the block that carries the label the ending names. A run of
the resolved graph does the same block by block, so both stop, fail or go on together.
-/

namespace SparseQuantum

set_option autoImplicit false

variable {R : Type} [Scalar R]

/-! ### The direct reading -/

/-- What a direct reading stops at: what a run stops at, or a name or label that means nothing. -/
inductive Halt (R : Type) where
  | interrupted (interruption : Interruption R)
  | unknownName (label name : String)
  | unknownLabel (label : String)

abbrev Reading (R α : Type) := EStateM (Halt R) (RunState R) α

namespace Reading

def ofRun {α : Type} (run : Run R α) : Reading R α := run.adaptExcept Halt.interrupted

/-- Performs an action of the simulator; what it refuses is reported with the instruction. -/
def act {α : Type} (label : String) (instruction : Instruction R) (action : Action R α) :
    Reading R α :=
  ofRun (Run.perform ⟨label, instruction⟩ action)

def register (register : RegisterId) : Reading R Int64 := do
  pure ((← get).simulator.register register)

end Reading

open Reading

def Statement.effect (registry : Registry R) (label : String) : Statement R → Reading R Unit
  | .alloc qubit dirty => act label (.alloc qubit dirty) (Simulator.alloc qubit dirty)
  | .free qubit dirty => act label (.free qubit dirty) (Simulator.free qubit dirty)
  | .gate name angles target controls =>
      match Gate.ofName? (upperCase name) angles with
      | some found =>
          act label (.gate found target controls) (Simulator.applyGate found target controls)
      | none => throw (.unknownName label name)
  | .measure qubits register =>
      act label (.measure qubits register) do
        let bits ← Run.measureAll qubits
        Action.setRegister register (Run.packBits bits).toInt64
  | .dump qubits => act label (.dump qubits) (discard (Simulator.takeDump qubits))
  | .plugin name targets arguments inverse controls => do
      let instruction : Instruction R := .plugin name targets arguments inverse controls
      let plugin ← act label instruction (Action.orRefuse (registry.resolve name))
      let call ← act label instruction
        (Simulator.applyPlugin plugin targets arguments inverse controls)
      ofRun (Run.noteCall name call)
  | .constant target value => act label (.constant target value) (Action.setRegister target value)
  | .move target source => do
      act label (.move target source) (Action.setRegister target (← register source))
  | .binary symbol target left right =>
      match BinaryOperator.ofSymbol? symbol with
      | none => throw (.unknownName label symbol)
      | some operator => do
          let instruction : Instruction R := .binary operator target left right
          match operator.apply (← register left) (← register right) with
          | .ok value => act label instruction (Action.setRegister target value)
          | .error error => throw (.interrupted (.failure label instruction (.arithmetic error)))
  | .unary symbol target source =>
      match UnaryOperator.ofSymbol? symbol with
      | none => throw (.unknownName label symbol)
      | some operator => do
          act label (.unary operator target source)
            (Action.setRegister target (operator.apply (← register source)))

def Block.effects (registry : Registry R) (block : Block R) : List (Reading R Unit) :=
  block.statements.map (Statement.effect registry block.label)

def Ending.next (simulator : Simulator R) : Ending → Option String
  | .stop => none
  | .jump label => some label
  | .branch register onNonzero onZero =>
      some (if simulator.register register ≠ 0 then onNonzero else onZero)

def Reading.inOrder : List (Reading R Unit) → Reading R Unit
  | [] => pure ()
  | effect :: rest => do
      effect
      inOrder rest

/-- Performs the block with this label and tells with which to go on. -/
def Program.turn (program : Program R) (registry : Registry R) (label : String) :
    Reading R (Option String) :=
  match program.blocks.find? (·.label == label) with
  | none => throw (.unknownLabel label)
  | some block => do
      inOrder (block.effects registry)
      pure (block.ending.next (← get).simulator)

/-! ### Stages -/

inductive Stage (Place Stop R : Type) where
  | before (place : Place) (state : RunState R)
  | ended (result : Except Stop Unit) (state : RunState R)

namespace Stage

variable {Place Stop : Type}

def after : EStateM.Result Stop (RunState R) (Option Place) → Stage Place Stop R
  | .ok (some next) state => .before next state
  | .ok none state => .ended (.ok ()) state
  | .error stop state => .ended (.error stop) state

def advance (turn : Place → EStateM Stop (RunState R) (Option Place)) :
    Stage Place Stop R → Stage Place Stop R
  | .before place state => after (turn place state)
  | .ended result state => .ended result state

def outcome? : Stage Place (Interruption R) R → Option (Run.Outcome R)
  | .before _ _ => none
  | .ended result state => some ⟨result, state⟩

end Stage

def Program.stage (program : Program R) (registry : Registry R) (state : RunState R)
    (blocks : Nat) : Stage String (Halt R) R :=
  (Stage.advance (program.turn registry))^[blocks] (.before program.entry state)

def BlockGraph.stage (graph : BlockGraph R) (registry : Registry R) (state : RunState R)
    (blocks : Nat) : Stage Nat (Interruption R) R :=
  (Stage.advance (Run.step graph registry))^[blocks] (.before graph.entry state)

def GraphBlock.effects (registry : Registry R) (block : GraphBlock R) : List (Reading R Unit) :=
  block.instructions.map fun instruction => ofRun (Run.execute registry block.label instruction)

/-- The reading and the run stand at the same point: before blocks with the same label and the same
effects and in the same state, or at the same end. -/
inductive Stage.Agree (program : Program R) (graph : BlockGraph R) (registry : Registry R) :
    Stage String (Halt R) R → Stage Nat (Interruption R) R → Prop where
  | before {label : String} {number : Nat} {block : Block R} {resolved : GraphBlock R}
      {state : RunState R} (found : program.blocks.find? (·.label == label) = some block)
      (stands : graph.blocks[number]? = some resolved) (label_eq : resolved.label = label)
      (effects_eq : resolved.effects registry = block.effects registry)
      (last_iff : number = graph.last ↔ block.ending = .stop) :
      Agree program graph registry (.before label state) (.before number state)
  | ended {result : Except (Interruption R) Unit} {state : RunState R} :
      Agree program graph registry (.ended (result.mapError Halt.interrupted) state)
        (.ended result state)

/-! ### Statements and blocks -/

omit [Scalar R] in
@[simp] theorem of_run_bind {α β : Type} (first : Run R α) (next : α → Run R β) :
    ofRun (first >>= next) = ofRun first >>= fun value => ofRun (next value) := by
  funext state
  change EStateM.adaptExcept Halt.interrupted (EStateM.bind first next) state =
    EStateM.bind (EStateM.adaptExcept Halt.interrupted first) _ state
  simp only [EStateM.adaptExcept, EStateM.bind]
  cases first state <;> rfl

theorem effect_of_resolve (registry : Registry R) {label : String} {statement : Statement R}
    {instruction : Instruction R} (resolved : statement.resolve label = .ok instruction) :
    ofRun (Run.execute registry label instruction) = statement.effect registry label := by
  cases statement with
  | alloc qubit dirty =>
      cases resolved
      rfl
  | free qubit dirty =>
      cases resolved
      rfl
  | gate name angles target controls =>
      obtain ⟨gate, found, resolved⟩ := except_bind_eq_ok resolved
      by_cases clash : target ∈ controls
      · rw [if_pos clash] at resolved
        cases resolved
      · rw [if_neg clash] at resolved
        cases resolved
        simp only [Statement.effect, Statement.resolve_gate_eq_ok found]
        rfl
  | measure qubits register =>
      by_cases wide : registerBits < qubits.length
      · simp only [Statement.resolve, if_pos wide] at resolved
        cases resolved
      · simp only [Statement.resolve, if_neg wide] at resolved
        cases resolved
        rfl
  | dump qubits =>
      cases resolved
      rfl
  | plugin name targets arguments inverse controls =>
      cases resolved
      simp only [Run.execute, of_run_bind]
      rfl
  | constant target value =>
      cases resolved
      rfl
  | move target source =>
      cases resolved
      rfl
  | binary symbol target left right =>
      obtain ⟨operator, found, resolved⟩ := except_bind_eq_ok resolved
      cases resolved
      simp only [Statement.effect, Statement.resolve_symbol_eq_ok found]
      funext state
      -- Both read the two registers in the state at hand and then go by what the operator answers.
      simp only [Run.execute, register, ofRun, EStateM.adaptExcept, bind, EStateM.bind, pure,
        EStateM.pure, get, getThe, MonadStateOf.get, EStateM.get]
      cases operator.apply (state.simulator.register left) (state.simulator.register right) with
      | ok value => rfl
      | error error => rfl
  | unary symbol target source =>
      obtain ⟨operator, found, resolved⟩ := except_bind_eq_ok resolved
      cases resolved
      simp only [Statement.effect, Statement.resolve_symbol_eq_ok found]
      rfl

theorem effects_of_resolves (registry : Registry R) {labels : List String} {block : Block R}
    {resolved : GraphBlock R} (resolves : block.ResolvesTo labels resolved) :
    resolved.effects registry = block.effects registry := by
  unfold GraphBlock.effects Block.effects
  rw [resolves.label_eq]
  have each := resolves.instructions
  generalize resolved.instructions = instructions at each
  generalize block.statements = statements at each
  induction each with
  | nil => rfl
  | cons here _ ih => rw [List.map_cons, List.map_cons, ih, effect_of_resolve registry here]

theorem of_run_execute_all (registry : Registry R) (label : String)
    (instructions : List (Instruction R)) :
    ofRun (Run.executeAll registry label instructions) =
      inOrder (instructions.map fun instruction =>
        ofRun (Run.execute registry label instruction)) := by
  induction instructions with
  | nil => rfl
  | cons instruction rest ih =>
      rw [Run.executeAll, of_run_bind, ih]
      rfl

theorem stop_iff_of_resolves {labels : List String} {ending : Ending} {successor : Successor}
    (resolves : ending.ResolvesTo labels successor) : successor = .stop ↔ ending = .stop := by
  cases resolves <;> simp

omit [Scalar R] in
theorem next_of_resolves {labels : List String} {ending : Ending} {block : GraphBlock R}
    (resolves : ending.ResolvesTo labels block.successor) (goes : ending ≠ .stop)
    (simulator : Simulator R) :
    ∃ label number, ending.next simulator = some label ∧
      Run.successor block simulator = some number ∧ labels.idxOf? label = some number := by
  unfold Run.successor
  generalize block.successor = successor at resolves
  cases resolves with
  | stop => exact absurd rfl goes
  | jump found => exact ⟨_, _, rfl, rfl, found⟩
  | branch foundNonzero foundZero =>
      refine ⟨_, _, rfl, rfl, ?_⟩
      split
      · exact foundNonzero
      · exact foundZero

/-! ### Lockstep -/

namespace Stage

inductive Matched (labels : List String) :
    Stage String (Halt R) R → Stage Nat (Interruption R) R → Prop where
  | before {label : String} {number : Nat} {state : RunState R}
      (found : labels.idxOf? label = some number) :
      Matched labels (.before label state) (.before number state)
  | ended {result : Except (Interruption R) Unit} {state : RunState R} :
      Matched labels (.ended (result.mapError Halt.interrupted) state) (.ended result state)

end Stage

open Stage

omit [Scalar R] in
theorem Program.Placed.last_iff {program : Program R} {graph : BlockGraph R} {label : String}
    {number : Nat} {block : Block R} {resolved : GraphBlock R}
    (placed : program.Placed graph label number block resolved)
    (resolves : program.ResolvesTo graph) : number = graph.last ↔ block.ending = .stop := by
  rw [resolves.last_iff placed.stands, stop_iff_of_resolves placed.resolves.ending]

theorem turn_eq {program : Program R} {graph : BlockGraph R} {registry : Registry R}
    {label : String} {number : Nat} {block : Block R} {resolved : GraphBlock R}
    (placed : program.Placed graph label number block resolved) (state : RunState R) :
    program.turn registry label state =
      match Run.executeAll registry resolved.label resolved.instructions state with
      | .ok () after => .ok (block.ending.next after.simulator) after
      | .error interruption after => .error (.interrupted interruption) after := by
  have performed : inOrder (block.effects registry) =
      ofRun (Run.executeAll registry resolved.label resolved.instructions) := by
    rw [← effects_of_resolves registry placed.resolves, of_run_execute_all]
    rfl
  simp only [Program.turn, placed.found, performed]
  change EStateM.bind (EStateM.adaptExcept Halt.interrupted _) _ state = _
  simp only [EStateM.bind, EStateM.adaptExcept]
  cases Run.executeAll registry resolved.label resolved.instructions state with
  | ok _ after => rfl
  | error interruption after => rfl

theorem advance_matched {program : Program R} {graph : BlockGraph R}
    (resolves : program.ResolvesTo graph) (registry : Registry R)
    {reading : Stage String (Halt R) R} {running : Stage Nat (Interruption R) R}
    (matched : Matched program.labels reading running) :
    Matched program.labels (reading.advance (program.turn registry))
      (running.advance (Run.step graph registry)) := by
  cases matched with
  | ended => exact .ended
  | @before label number state found =>
      obtain ⟨block, resolved, placed⟩ := resolves.placed found
      change Matched _ (after (program.turn registry label state))
        (after (Run.step graph registry number state))
      rw [turn_eq placed]
      have ends := Run.step_outcome graph registry number state
      generalize Run.step graph registry number state = result at ends
      cases ends with
      | missing nothing =>
          rw [placed.stands] at nothing
          cases nothing
      | stopped stands stopped =>
          cases placed.stands.symm.trans stands
          rw [stopped]
          exact @Matched.ended R _ (.error _) _
      | @passed _ left stands done =>
          cases placed.stands.symm.trans stands
          rw [done]
          have last_iff := placed.last_iff resolves
          by_cases stops : block.ending = .stop
          · rw [if_pos (last_iff.2 stops), stops]
            exact @Matched.ended R _ (.ok ()) _
          · obtain ⟨next, place, names, follows, found⟩ :=
              next_of_resolves placed.resolves.ending stops left.simulator
            rw [if_neg fun last => stops (last_iff.1 last), follows]
            simp only [names]
            exact .before found

theorem stages_matched {program : Program R} {graph : BlockGraph R}
    (resolves : program.ResolvesTo graph) (registry : Registry R) (state : RunState R)
    (blocks : Nat) :
    Matched program.labels (program.stage registry state blocks)
      (graph.stage registry state blocks) := by
  induction blocks with
  | zero => exact .before resolves.entry_found
  | succ blocks ih =>
      unfold Program.stage BlockGraph.stage
      rw [Function.iterate_succ_apply', Function.iterate_succ_apply']
      exact advance_matched resolves registry ih

theorem agree_of_matched {program : Program R} {graph : BlockGraph R}
    (resolves : program.ResolvesTo graph) (registry : Registry R)
    {reading : Stage String (Halt R) R} {running : Stage Nat (Interruption R) R}
    (matched : Matched program.labels reading running) :
    Agree program graph registry reading running := by
  cases matched with
  | ended => exact .ended
  | before found =>
      obtain ⟨block, resolved, placed⟩ := resolves.placed found
      exact .before placed.found placed.stands (placed.resolves.label_eq.trans placed.label_eq)
        (effects_of_resolves registry placed.resolves) (placed.last_iff resolves)

/-! ### The program's run -/

theorem loop_eq_outcome (graph : BlockGraph R) (registry : Registry R) (budget number : Nat)
    (state : RunState R) :
    Run.loop graph registry budget number state =
      ((Stage.advance (Run.step graph registry))^[budget] (.before number state)).outcome? := by
  have stays (result : Except (Interruption R) Unit) (state : RunState R) (blocks : Nat) :
      (Stage.advance (Run.step graph registry))^[blocks] (.ended result state) =
        .ended result state := Function.iterate_fixed rfl blocks
  induction budget generalizing number state with
  | zero => rfl
  | succ budget ih =>
      rw [Function.iterate_succ_apply]
      unfold Run.loop
      change _ = outcome? (_^[budget] (after (Run.step graph registry number state)))
      cases Run.step graph registry number state with
      | error interruption left =>
          rw [after, stays]
          rfl
      | ok next left =>
          cases next with
          | none =>
              rw [after, stays]
              rfl
          | some next => exact ih next left

def Machine.report (machine : Machine R) (settings : Settings) (outcome : Run.Outcome R) :
    Machine.Report R :=
  ⟨outcome.result, { machine.prepare settings with simulator := outcome.state.simulator },
    outcome.state.calls.reverse⟩

/-- A program that resolves has one block for each label, and its run stops by its number exactly
where the block stops. From any state and with any plugins, run and reading agree after every
number of blocks, and what a machine reports is where the run stands by then. -/
theorem run_follows_labels {program : Program R} {graph : BlockGraph R}
    (resolved : program.resolve = .ok graph) :
    program.labels.Nodup ∧
      (∀ number block, graph.blocks[number]? = some block →
        (number = graph.last ↔ block.successor = .stop)) ∧
      (∀ registry state blocks, Agree program graph registry
        (program.stage registry state blocks) (graph.stage registry state blocks)) ∧
      ∀ (machine : Machine R) settings budget, machine.graph = graph →
        machine.run settings budget =
          (graph.stage (machine.prepare settings).registry (machine.start settings)
            budget).outcome?.map (machine.report settings) := by
  have resolves := Program.resolves_to_of_ok resolved
  refine ⟨resolves.labels_distinct, fun _ _ found => resolves.last_iff found, ?_, ?_⟩
  · intro registry state blocks
    exact agree_of_matched resolves registry (stages_matched resolves registry state blocks)
  · intro machine settings budget same
    have looped := loop_eq_outcome graph (machine.prepare settings).registry budget graph.entry
      (machine.start settings)
    subst same
    unfold BlockGraph.stage
    rw [← looped]
    rfl

/-! ### A program that counts down -/

def Stage.place? {Place Stop : Type} : Stage Place Stop R → Option Place
  | .before place _ => some place
  | .ended _ _ => none

namespace Machine

def countdown : Program Float where
  entry := "set"
  blocks :=
    [⟨"done", [], .stop⟩,
      ⟨"set", [.alloc ⟨0⟩ false, .gate "x" [] ⟨0⟩ [], .constant ⟨0⟩ 2, .constant ⟨1⟩ 1],
        .jump "count"⟩,
      ⟨"count", [.binary "-" ⟨0⟩ ⟨0⟩ ⟨1⟩], .branch ⟨0⟩ "count" "done"⟩]

def countdownGraph : BlockGraph Float where
  blocks :=
    [⟨"done", [], .stop⟩,
      ⟨"set", [.alloc ⟨0⟩ false, .gate .x ⟨0⟩ [], .constant ⟨0⟩ 2, .constant ⟨1⟩ 1], .jump 2⟩,
      ⟨"count", [.binary .subtract ⟨0⟩ ⟨0⟩ ⟨1⟩], .branch ⟨0⟩ 2 0⟩]
  entry := 1
  last := 0

def countdownStart : RunState Float :=
  (ofGraph ⟨"plugins", 7, "dumps", 4⟩ countdownGraph).start ⟨"plugins", 7, "dumps", 4⟩

theorem countdown_follows_labels :
    countdown.resolve = .ok countdownGraph ∧
      (∀ registry state blocks, Agree countdown countdownGraph registry
        (countdown.stage registry state blocks) (countdownGraph.stage registry state blocks)) ∧
      ((List.range 5).map fun blocks =>
        (countdown.stage (.ofSearchPath "plugins") countdownStart blocks).place?) =
          [some "set", some "count", some "count", some "done", none] ∧
      ((List.range 5).map fun blocks =>
        (countdownGraph.stage (.ofSearchPath "plugins") countdownStart blocks).place?) =
          [some 1, some 2, some 2, some 0, none] := by
  have resolved : countdown.resolve = .ok countdownGraph := by cbv
  refine ⟨resolved, (run_follows_labels resolved).2.2.1, ?_, ?_⟩
  · decide +kernel
  · decide +kernel

end Machine

end SparseQuantum
