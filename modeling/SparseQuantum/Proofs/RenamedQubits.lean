import Mathlib
import SparseQuantum.Proofs.ChangingLimit
import SparseQuantum.Proofs.Grouping
import SparseQuantum.Proofs.ResolvedGraphs

/-!
# Renamed qubits

Two actions go side by side if from paired states both go on or both stop, and leave paired states.
Here the states are simulators that differ in the names of their qubits: every call under the old
names goes side by side with the same call under the new ones. It takes the same slots, draws the
same bits and records the same dumps, and what it refuses names the renamed qubits. Only what a
plugin answers by itself is passed on as it is, since a plugin sees positions and no names.
-/

namespace SparseQuantum

set_option autoImplicit false

/-- Two ends of the same kind. -/
inductive PairedEnds {ε σ α β : Type} (stops : ε → ε → Prop) (states : σ → σ → Prop)
    (values : α → β → Prop) : EStateM.Result ε σ α → EStateM.Result ε σ β → Prop where
  | ok {value : α} {other : β} {left right : σ} (same : values value other)
      (paired : states left right) :
      PairedEnds stops states values (.ok value left) (.ok other right)
  | error {stop other : ε} {left right : σ} (same : stops stop other)
      (paired : states left right) :
      PairedEnds stops states values (.error stop left) (.error other right)

/-- From paired states both actions come to ends of the same kind. -/
def SideBySide {ε σ α β : Type} (stops : ε → ε → Prop) (states : σ → σ → Prop)
    (values : α → β → Prop) (first : EStateM ε σ α) (second : EStateM ε σ β) : Prop :=
  ∀ left right, states left right → PairedEnds stops states values (first left) (second right)

namespace SideBySide

variable {ε σ α β γ δ : Type} {stops : ε → ε → Prop} {states : σ → σ → Prop}
  {values : α → β → Prop}

theorem of_pure {value : α} {other : β} (same : values value other) :
    SideBySide stops states values (pure value) (pure other) :=
  fun _ _ paired => .ok same paired

theorem of_throw {stop other : ε} (same : stops stop other) :
    SideBySide stops states values (throw stop) (throw other) :=
  fun _ _ paired => .error same paired

theorem of_modify {change other : σ → σ}
    (keeps : ∀ left right, states left right → states (change left) (other right)) :
    SideBySide stops states Eq (modify change) (modify other) :=
  fun left right paired => .ok rfl (keeps left right paired)

theorem bind {results : γ → δ → Prop} {first : EStateM ε σ α} {second : EStateM ε σ β}
    {next : α → EStateM ε σ γ} {onward : β → EStateM ε σ δ}
    (here : SideBySide stops states values first second)
    (later : ∀ value other, values value other →
      SideBySide stops states results (next value) (onward other)) :
    SideBySide stops states results (first >>= next) (second >>= onward) := by
  intro left right paired
  change PairedEnds _ _ _ (EStateM.bind first next left) (EStateM.bind second onward right)
  have ends := here left right paired
  unfold EStateM.bind
  generalize first left = answer at ends ⊢
  generalize second right = reply at ends ⊢
  cases ends with
  | ok same paired => exact later _ _ same _ _ paired
  | error same paired => exact .error same paired

theorem bind_same {results : γ → δ → Prop} {first second : EStateM ε σ α}
    {next : α → EStateM ε σ γ} {onward : α → EStateM ε σ δ}
    (here : SideBySide stops states Eq first second)
    (later : ∀ value, SideBySide stops states results (next value) (onward value)) :
    SideBySide stops states results (first >>= next) (second >>= onward) :=
  here.bind fun value _ same => same ▸ later value

theorem get_bind {results : γ → δ → Prop} {next : σ → EStateM ε σ γ} {onward : σ → EStateM ε σ δ}
    (later : ∀ left right, states left right →
      SideBySide stops states results (next left) (onward right)) :
    SideBySide stops states results (MonadState.get >>= next) (MonadState.get >>= onward) :=
  bind (fun _ _ paired => .ok paired paired) later

theorem set_bind {results : γ → δ → Prop} {left right : σ} {next : PUnit → EStateM ε σ γ}
    {onward : PUnit → EStateM ε σ δ} (paired : states left right)
    (later : SideBySide stops states results (next ⟨⟩) (onward ⟨⟩)) :
    SideBySide stops states results (MonadStateOf.set left >>= next)
      (MonadStateOf.set right >>= onward) :=
  fun _ _ _ => later left right paired

theorem modify_bind {results : γ → δ → Prop} {change other : σ → σ} {next : PUnit → EStateM ε σ γ}
    {onward : PUnit → EStateM ε σ δ}
    (keeps : ∀ left right, states left right → states (change left) (other right))
    (later : SideBySide stops states results (next ⟨⟩) (onward ⟨⟩)) :
    SideBySide stops states results (modify change >>= next)
      (modify other >>= onward) :=
  (of_modify keeps).bind_same fun _ => later

end SideBySide

/-! ### New names -/

structure Renaming where
  label : String → String
  qubit : QubitId → QubitId

def SimulatorError.rename (names : Renaming) : SimulatorError → SimulatorError
  | notAllocated qubit => notAllocated (names.qubit qubit)
  | alreadyAllocated qubit => alreadyAllocated (names.qubit qubit)
  | duplicateQubit qubit => duplicateQubit (names.qubit qubit)
  | notMeasured qubit => notMeasured (names.qubit qubit)
  | other => other

/-- The same stop under new names. A refusal from `answers` is passed on from where the names are
not known, and stays as it is. -/
inductive Stop.UnderNames (names : Renaming) (answers : SimulatorError → Prop) :
    Stop → Stop → Prop where
  | refused (error : SimulatorError) :
      UnderNames names answers (.refused error) (.refused (error.rename names))
  | answered {error : SimulatorError} (own : answers error) :
      UnderNames names answers (.refused error) (.refused error)
  | fault (fault : Fault) : UnderNames names answers (.fault fault) (.fault fault)

def TableUnderNames {Value : Type} (names : Renaming)
    (left right : Std.ExtTreeMap QubitId Value compare) : Prop :=
  ∀ qubit, right[names.qubit qubit]? = left[qubit]?

/-- The same simulator but for the names of the qubits. -/
structure Simulator.UnderNames {R : Type} (names : Renaming) (left right : Simulator R) : Prop where
  arena : right.arena = left.arena
  allocation : TableUnderNames names left.allocation right.allocation
  freeSlots : right.freeSlots = left.freeSlots
  parkedSlots : right.parkedSlots = left.parkedSlots
  nextSlot : right.nextSlot = left.nextSlot
  maxQubits : right.maxQubits = left.maxQubits
  registers : right.registers = left.registers
  bits : TableUnderNames names left.bits right.bits
  dumps : right.dumps = left.dumps
  draws : right.draws = left.draws
  seed : right.seed = left.seed

section Tables

variable {Value : Type} {names : Renaming} {left right : Std.ExtTreeMap QubitId Value compare}

theorem TableUnderNames.insert (table : TableUnderNames names left right)
    (apart : Function.Injective names.qubit) (qubit : QubitId) (value : Value) :
    TableUnderNames names (left.insert qubit value) (right.insert (names.qubit qubit) value) := by
  intro other
  simp only [get_insert, apart.eq_iff, table other]

theorem TableUnderNames.erase (table : TableUnderNames names left right)
    (apart : Function.Injective names.qubit) (qubit : QubitId) :
    TableUnderNames names (left.erase qubit) (right.erase (names.qubit qubit)) := by
  intro other
  simp only [get_erase, apart.eq_iff, table other]

theorem TableUnderNames.contains (table : TableUnderNames names left right) (qubit : QubitId) :
    right.contains (names.qubit qubit) = left.contains qubit := by
  rw [Std.ExtTreeMap.contains_eq_isSome_getElem?, Std.ExtTreeMap.contains_eq_isSome_getElem?,
    table qubit]

end Tables

namespace Simulator

variable {R : Type} {names : Renaming} {answers : SimulatorError → Prop}

abbrev Alongside {α : Type} (names : Renaming) (answers : SimulatorError → Prop)
    (first second : Action R α) : Prop :=
  SideBySide (Stop.UnderNames names answers) (UnderNames names) Eq first second

theorem or_fault_bind {α β γ : Type} {values : β → γ → Prop} {result : Except Fault α}
    {next : α → Action R β} {onward : α → Action R γ}
    (later : ∀ value, result = .ok value → SideBySide (Stop.UnderNames names answers)
      (UnderNames names) values (next value) (onward value)) :
    SideBySide (Stop.UnderNames names answers) (UnderNames names) values
      (Action.orFault result >>= next) (Action.orFault result >>= onward) := by
  cases result with
  | ok value => exact later value rfl
  | error fault => exact SideBySide.of_throw (.fault fault)

theorem or_refuse_alongside {α : Type} (result : Except SimulatorError α) :
    Alongside names answers (Action.orRefuse result : Action R α)
      (Action.orRefuse (result.mapError (SimulatorError.rename names))) := by
  cases result with
  | ok value => exact SideBySide.of_pure rfl
  | error error => exact SideBySide.of_throw (.refused error)

theorem state_at_alongside (place : Nat) :
    Alongside names answers (Action.stateAt place : Action R _) (Action.stateAt place) := by
  refine SideBySide.get_bind fun left right paired => ?_
  rw [paired.arena]
  exact or_fault_bind fun partition _ => SideBySide.of_pure rfl

theorem set_state_at_alongside (place : Nat) (state : SparseState R) :
    Alongside names answers (Action.setStateAt place state : Action R _)
      (Action.setStateAt place state) := by
  refine SideBySide.get_bind fun left right paired => ?_
  rw [paired.arena]
  refine or_fault_bind fun arena _ => ?_
  exact SideBySide.of_modify fun left right paired => { paired with arena := rfl }

theorem set_register_alongside (register : RegisterId) (value : Int64) :
    Alongside names answers (Action.setRegister register value : Action R _)
      (Action.setRegister register value) :=
  SideBySide.of_modify fun left right paired =>
    { paired with registers := by rw [paired.registers] }

def keepDump (record : Dump R) : Action R Nat := do
  let index := (← get).dumps.size
  modify fun simulator => { simulator with dumps := simulator.dumps.push record }
  pure index

theorem keep_dump_alongside (record : Dump R) :
    Alongside names answers (keepDump record) (keepDump record) := by
  refine SideBySide.get_bind fun left right paired => ?_
  rw [paired.dumps]
  refine SideBySide.modify_bind (fun left right paired => ?_) (SideBySide.of_pure rfl)
  exact { paired with dumps := congrArg (·.push record) paired.dumps }

theorem slot_of_under_names {left right : Simulator R} (paired : UnderNames names left right)
    (qubit : QubitId) : right.slotOf (names.qubit qubit) =
      (left.slotOf qubit).mapError (SimulatorError.rename names) := by
  rw [slotOf, slotOf, paired.allocation qubit]
  cases left.allocation[qubit]? <;> rfl

theorem slots_of_under_names (apart : Function.Injective names.qubit) {left right : Simulator R}
    (paired : UnderNames names left right) (seen qubits : List QubitId) :
    right.slotsOf (seen.map names.qubit) (qubits.map names.qubit) =
      (left.slotsOf seen qubits).mapError (SimulatorError.rename names) := by
  induction qubits generalizing seen with
  | nil => rfl
  | cons qubit rest induction =>
      have listed : names.qubit qubit ∈ seen.map names.qubit ↔ qubit ∈ seen :=
        List.mem_map_of_injective apart
      rw [List.map_cons, slotsOf, slotsOf]
      by_cases again : qubit ∈ seen
      · rw [if_pos again, if_pos (listed.2 again)]
        rfl
      · rw [if_neg again, if_neg fun known => again (listed.1 known), slot_of_under_names paired,
          ← List.map_cons, induction]
        cases left.slotOf qubit with
        | error error => rfl
        | ok slot => cases left.slotsOf (qubit :: seen) rest <;> rfl

theorem operands_alongside (apart : Function.Injective names.qubit) (qubits : List QubitId) :
    Alongside names answers (operands qubits : Action R _) (operands (qubits.map names.qubit)) := by
  refine SideBySide.get_bind fun left right paired => ?_
  have slots := slots_of_under_names apart paired [] qubits
  rw [List.map_nil] at slots
  rw [slots]
  exact or_refuse_alongside _

/-! ### Allocation -/

theorem take_slot_alongside :
    Alongside names answers (takeSlot : Action R Nat) takeSlot := by
  refine SideBySide.get_bind fun left right paired => ?_
  rw [paired.freeSlots, paired.nextSlot, paired.maxQubits]
  cases left.freeSlots with
  | cons slot rest =>
      refine SideBySide.set_bind ?_ (SideBySide.of_pure rfl)
      exact { paired with freeSlots := rfl, nextSlot := rfl, maxQubits := rfl }
  | nil =>
      simp only
      split_ifs
      · refine SideBySide.set_bind ?_ (SideBySide.of_pure rfl)
        exact { paired with freeSlots := rfl, nextSlot := rfl, maxQubits := rfl }
      · exact SideBySide.of_throw (.refused _)

theorem occupy_alongside (apart : Function.Injective names.qubit) (qubit : QubitId) (slot : Nat) :
    Alongside names answers (occupy qubit slot : Action R Unit)
      (occupy (names.qubit qubit) slot) :=
  SideBySide.of_modify fun _ _ paired =>
    { paired with allocation := paired.allocation.insert apart qubit slot }

section Calls

variable [Scalar R] (apart : Function.Injective names.qubit)

theorem merge_alongside (first : Nat) (others : List Nat) :
    Alongside names answers (Action.merge first others : Action R Nat)
      (Action.merge first others) := by
  refine SideBySide.get_bind fun left right paired => ?_
  rw [paired.arena]
  refine or_fault_bind fun ⟨place, arena⟩ _ => ?_
  refine SideBySide.modify_bind (fun left right paired => ?_) (SideBySide.of_pure rfl)
  exact { paired with arena := rfl }

theorem reset_alongside (slot : Nat) :
    Alongside names answers (reset slot : Action R Unit) (reset slot) := by
  refine SideBySide.get_bind fun left right paired => ?_
  rw [paired.arena]
  cases left.arena.owner? slot with
  | none => exact SideBySide.of_pure rfl
  | some place =>
      refine (state_at_alongside place).bind_same fun state =>
        SideBySide.get_bind fun left right paired => ?_
      rw [paired.draws]
      refine or_fault_bind fun ⟨after, draws⟩ _ => ?_
      refine (set_state_at_alongside place after).bind_same fun _ =>
        SideBySide.get_bind fun left right paired => ?_
      rw [paired.arena]
      refine or_fault_bind fun arena _ => ?_
      exact SideBySide.of_modify fun left right paired => { paired with arena := rfl, draws := rfl }

include apart

theorem alloc_clean_alongside (qubit : QubitId) :
    Alongside names answers (allocClean qubit : Action R Unit)
      (allocClean (names.qubit qubit)) := by
  refine take_slot_alongside.bind_same fun slot => SideBySide.get_bind fun left right paired => ?_
  rw [paired.arena]
  refine or_fault_bind fun arena _ => ?_
  refine SideBySide.modify_bind (fun left right paired => ?_) (occupy_alongside apart qubit slot)
  exact { paired with arena := rfl }

theorem alloc_alongside (qubit : QubitId) (dirty : Bool) :
    Alongside names answers (alloc qubit dirty : Action R Unit)
      (alloc (names.qubit qubit) dirty) := by
  refine SideBySide.get_bind fun left right paired => ?_
  rw [paired.allocation.contains, paired.parkedSlots]
  split_ifs
  · exact SideBySide.of_throw (.refused (.alreadyAllocated qubit))
  · cases left.parkedSlots with
    | nil => exact alloc_clean_alongside apart qubit
    | cons slot rest =>
        refine SideBySide.set_bind ?_ (occupy_alongside apart qubit slot)
        exact { paired with parkedSlots := rfl }
  · exact alloc_clean_alongside apart qubit

theorem free_alongside (qubit : QubitId) (dirty : Bool) :
    Alongside names answers (free qubit dirty : Action R Unit)
      (free (names.qubit qubit) dirty) := by
  refine SideBySide.get_bind fun left right paired => ?_
  rw [slot_of_under_names paired]
  refine (or_refuse_alongside _).bind_same fun slot => ?_
  refine SideBySide.modify_bind (fun left right paired => ?_) ?_
  · exact { paired with allocation := paired.allocation.erase apart qubit }
  split_ifs
  · exact SideBySide.of_modify fun left right paired =>
      { paired with parkedSlots := congrArg (slot :: ·) paired.parkedSlots }
  · refine (reset_alongside slot).bind_same fun _ => ?_
    exact SideBySide.of_modify fun left right paired =>
      { paired with freeSlots := congrArg (slot :: ·) paired.freeSlots }

/-! ### Operations -/

theorem apply_gate_alongside (gate : Gate R) (target : QubitId) (controls : List QubitId) :
    Alongside names answers (applyGate gate target controls)
      (applyGate gate (names.qubit target) (controls.map names.qubit)) := by
  unfold applyGate
  rw [← List.map_cons]
  refine (operands_alongside apart _).bind_same fun slots => ?_
  cases slots with
  | nil => exact SideBySide.of_pure rfl
  | cons slot rest =>
      refine SideBySide.get_bind fun left right paired => ?_
      rw [live_controls_congr paired.arena]
      refine or_fault_bind fun decided _ => ?_
      cases decided with
      | none => exact SideBySide.of_pure rfl
      | some live =>
          refine (merge_alongside slot live).bind_same fun place => ?_
          refine (state_at_alongside place).bind_same fun state => ?_
          exact or_fault_bind fun after _ => set_state_at_alongside place after

theorem measure_alongside (qubit : QubitId) :
    Alongside names answers (measure qubit : Action R Bool) (measure (names.qubit qubit)) := by
  refine SideBySide.get_bind fun left right paired => ?_
  rw [slot_of_under_names paired]
  refine (or_refuse_alongside _).bind_same fun slot =>
    SideBySide.get_bind fun left right paired => ?_
  rw [paired.arena]
  cases left.arena.owner? slot with
  | none => exact SideBySide.of_throw (.refused (.notAllocated qubit))
  | some place =>
      refine (state_at_alongside place).bind_same fun state =>
        SideBySide.get_bind fun left right paired => ?_
      rw [paired.draws]
      refine or_fault_bind fun ⟨bit, after, draws⟩ _ => ?_
      refine (set_state_at_alongside place after).bind_same fun _ => ?_
      refine SideBySide.modify_bind (fun left right paired => ?_) (SideBySide.of_pure rfl)
      exact { paired with draws := rfl, bits := paired.bits.insert apart qubit bit }

theorem take_dump_alongside (qubits : List QubitId) :
    Alongside names answers (takeDump qubits : Action R Nat)
      (takeDump (qubits.map names.qubit)) := by
  refine (operands_alongside apart qubits).bind_same fun slots => ?_
  cases slots with
  | nil => exact keep_dump_alongside _
  | cons first rest =>
      refine (merge_alongside first rest).bind_same fun place => ?_
      refine (state_at_alongside place).bind_same fun state => ?_
      refine or_fault_bind fun canonical _ => ?_
      refine or_fault_bind fun restored _ => ?_
      exact (set_state_at_alongside place restored).bind_same fun _ => keep_dump_alongside _

omit apart in
/-- Whether a plugin's run went well is told by the plugin alone. -/
theorem run_plugin_answer {plugin : Plugin R} {state after : SparseState R}
    {targets controls : Nat} {arguments : String} {inverse : Bool} {call : PluginCall R}
    {outcome : Except Stop Unit}
    (ran : runPlugin plugin state targets controls arguments inverse = .ok (after, call, outcome)) :
    (plugin.run call).2 = outcome := by
  obtain ⟨split, _, done⟩ := except_bind_eq_ok ran
  simp only at done
  split at done
  · cases done
    rfl
  · cases done
    rfl

theorem apply_plugin_alongside (plugin : Plugin R) (targets : List QubitId) (arguments : String)
    (inverse : Bool) (controls : List QubitId)
    (own : ∀ call error, (plugin.run call).2 = .error (.refused error) → answers error) :
    Alongside names answers (applyPlugin plugin targets arguments inverse controls)
      (applyPlugin plugin (targets.map names.qubit) arguments inverse
        (controls.map names.qubit)) := by
  unfold applyPlugin
  rw [← List.map_append, List.length_map]
  refine (operands_alongside apart _).bind_same fun slots => ?_
  refine SideBySide.get_bind fun left right paired => ?_
  rw [live_controls_congr paired.arena]
  refine or_fault_bind fun decided _ => ?_
  cases decided with
  | none => exact SideBySide.of_pure rfl
  | some live =>
      simp only
      cases slots.take targets.length with
      | nil => exact SideBySide.of_pure rfl
      | cons first rest =>
          refine (merge_alongside first (rest ++ live)).bind_same fun place => ?_
          refine (state_at_alongside place).bind_same fun state => ?_
          refine or_fault_bind fun canonical _ => ?_
          -- The plugin is handed the same on both sides, so it leaves and answers the same.
          refine or_fault_bind fun ⟨left, call, outcome⟩ ran => ?_
          refine or_fault_bind fun restored _ => ?_
          refine (set_state_at_alongside place restored).bind_same fun _ => ?_
          cases outcome with
          | ok _ => exact SideBySide.of_pure rfl
          | error stop =>
              have answered := run_plugin_answer ran
              cases stop with
              | refused error => exact SideBySide.of_throw (.answered (own call error answered))
              | fault fault => exact SideBySide.of_throw (.fault fault)

end Calls

end Simulator

end SparseQuantum
