import Mathlib
import SparseQuantum.Proofs.Reachability

/-!
# Changing the limit during a run

Only the search for a slot that was never handed out reads the limit. Everything else a simulator
does is the same under every limit, so a run may change the limit in between: what is left is
well-formed but for the limit, which the slots handed out before may exceed.
-/

namespace SparseQuantum

set_option autoImplicit false

variable {R : Type}

namespace Simulator

def underLimit (simulator : Simulator R) (limit : Nat) : Simulator R :=
  { simulator with maxQubits := limit }

def resultUnder {α : Type} (limit : Nat) :
    EStateM.Result Stop (Simulator R) α → EStateM.Result Stop (Simulator R) α
  | .ok value after => .ok value (after.underLimit limit)
  | .error stop after => .error stop (after.underLimit limit)

theorem leaves_result_under {α : Type} (limit : Nat)
    (result : EStateM.Result Stop (Simulator R) α) :
    leaves (resultUnder limit result) = (leaves result).underLimit limit := by
  cases result <;> rfl

end Simulator

open Simulator

namespace Action

def IgnoresLimit {α : Type} (action : Action R α) : Prop :=
  ∀ before limit, action (before.underLimit limit) = resultUnder limit (action before)

variable {α β : Type}

theorem pure_ignores_limit (value : α) : IgnoresLimit (pure value : Action R α) := by
  intro before limit
  rfl

theorem throw_ignores_limit (stop : Stop) : IgnoresLimit (throw stop : Action R α) := by
  intro before limit
  rfl

theorem modify_ignores_limit {change : Simulator R → Simulator R}
    (blind : ∀ before limit, change (before.underLimit limit) = (change before).underLimit limit) :
    IgnoresLimit (modify change : Action R Unit) := by
  intro before limit
  change EStateM.Result.ok () (change (before.underLimit limit)) = _
  rw [blind]
  rfl

theorem or_refuse_ignores_limit (result : Except SimulatorError α) :
    IgnoresLimit (orRefuse result : Action R α) := by
  cases result with
  | ok value => exact pure_ignores_limit value
  | error error => exact throw_ignores_limit (.refused error)

theorem or_fault_ignores_limit (result : Except Fault α) :
    IgnoresLimit (orFault result : Action R α) := by
  cases result with
  | ok value => exact pure_ignores_limit value
  | error fault => exact throw_ignores_limit (.fault fault)

theorem bind_ignores_limit {action : Action R α} {next : α → Action R β}
    (first : IgnoresLimit action) (later : ∀ value, IgnoresLimit (next value)) :
    IgnoresLimit (action >>= next) := by
  intro before limit
  have here := first before limit
  cases answer : action before with
  | ok value after =>
      rw [answer] at here
      rw [bind_of_ok here, bind_of_ok answer]
      exact later value after limit
  | error stop after =>
      rw [answer] at here
      rw [bind_of_error here, bind_of_error answer]
      rfl

theorem get_ignores_limit {next : Simulator R → Action R β}
    (blind : ∀ before limit, next (before.underLimit limit) = next before)
    (later : ∀ before, IgnoresLimit (next before)) : IgnoresLimit (get >>= next) := by
  intro before limit
  rw [bind_get, bind_get, blind]
  exact later before before limit

theorem discard_ignores_limit {action : Action R α} (ignores : IgnoresLimit action) :
    IgnoresLimit (discard action : Action R Unit) := by
  intro before limit
  change EStateM.map (Function.const α ()) action (before.underLimit limit) =
    resultUnder limit (EStateM.map (Function.const α ()) action before)
  unfold EStateM.map
  rw [ignores]
  cases action before <;> rfl

theorem state_at_ignores_limit (place : Nat) :
    IgnoresLimit (stateAt place : Action R (SparseState R)) := by
  unfold stateAt
  refine get_ignores_limit (fun _ _ => rfl) fun before => ?_
  exact bind_ignores_limit (or_fault_ignores_limit _) fun partition => pure_ignores_limit _

theorem set_state_at_ignores_limit (place : Nat) (state : SparseState R) :
    IgnoresLimit (setStateAt place state) := by
  unfold setStateAt
  refine get_ignores_limit (fun _ _ => rfl) fun before => ?_
  apply bind_ignores_limit (or_fault_ignores_limit _)
  intro arena
  exact modify_ignores_limit fun _ _ => rfl

theorem merge_ignores_limit [Scalar R] (first : Nat) (others : List Nat) :
    IgnoresLimit (merge first others : Action R Nat) := by
  unfold merge
  refine get_ignores_limit (fun _ _ => rfl) fun before => ?_
  apply bind_ignores_limit (or_fault_ignores_limit _)
  rintro ⟨place, arena⟩
  exact bind_ignores_limit (modify_ignores_limit fun _ _ => rfl)
    fun _ => pure_ignores_limit place

end Action

open SparseQuantum.Action

namespace Simulator

/-- Slots are told by the allocation alone. -/
theorem slots_of_congr {left right : Simulator R} (same : right.allocation = left.allocation)
    (seen qubits : List QubitId) : right.slotsOf seen qubits = left.slotsOf seen qubits := by
  induction qubits generalizing seen with
  | nil => rfl
  | cons qubit rest induction => rw [slotsOf, slotsOf, induction, slotOf, slotOf, same]

theorem slots_of_under_limit (simulator : Simulator R) (limit : Nat) (seen qubits : List QubitId) :
    (simulator.underLimit limit).slotsOf seen qubits = simulator.slotsOf seen qubits := by
  have same : (simulator.underLimit limit).allocation = simulator.allocation := rfl
  exact slots_of_congr same seen qubits

theorem operands_ignores_limit (qubits : List QubitId) :
    IgnoresLimit (operands qubits : Action R (List Nat)) := by
  unfold operands
  apply get_ignores_limit
  · intro before limit
    rw [slots_of_under_limit]
  · intro before
    exact or_refuse_ignores_limit _

theorem live_controls_congr {left right : Simulator R} (same : right.arena = left.arena)
    (slots : List Nat) : right.liveControls slots = left.liveControls slots := by
  induction slots with
  | nil => rfl
  | cons slot rest induction => rw [liveControls, liveControls, induction, same]

theorem live_controls_under_limit (simulator : Simulator R) (limit : Nat) (slots : List Nat) :
    (simulator.underLimit limit).liveControls slots = simulator.liveControls slots := by
  have same : (simulator.underLimit limit).arena = simulator.arena := rfl
  exact live_controls_congr same slots

variable [Scalar R]

theorem reset_ignores_limit (slot : Nat) : IgnoresLimit (reset slot : Action R Unit) := by
  unfold reset
  refine get_ignores_limit (fun _ _ => rfl) fun before => ?_
  cases before.arena.owner? slot with
  | none => exact pure_ignores_limit ()
  | some place =>
      apply bind_ignores_limit (state_at_ignores_limit place)
      intro state
      refine get_ignores_limit (fun _ _ => rfl) fun before => ?_
      apply bind_ignores_limit (or_fault_ignores_limit _)
      rintro ⟨state, draws⟩
      apply bind_ignores_limit (set_state_at_ignores_limit place state)
      intro _
      refine get_ignores_limit (fun _ _ => rfl) fun before => ?_
      apply bind_ignores_limit (or_fault_ignores_limit _)
      intro arena
      exact modify_ignores_limit fun _ _ => rfl

theorem free_ignores_limit (qubit : QubitId) (dirty : Bool) :
    IgnoresLimit (free qubit dirty : Action R Unit) := by
  unfold free
  refine get_ignores_limit (fun _ _ => rfl) fun before => ?_
  apply bind_ignores_limit (or_refuse_ignores_limit _)
  intro slot
  apply bind_ignores_limit (modify_ignores_limit fun _ _ => rfl)
  intro _
  cases dirty with
  | true => exact modify_ignores_limit fun _ _ => rfl
  | false =>
      exact bind_ignores_limit (reset_ignores_limit slot) fun _ =>
        modify_ignores_limit fun _ _ => rfl

theorem apply_gate_ignores_limit (gate : Gate R) (target : QubitId) (controls : List QubitId) :
    IgnoresLimit (applyGate gate target controls) := by
  unfold applyGate
  apply bind_ignores_limit (operands_ignores_limit _)
  intro slots
  cases slots with
  | nil => exact pure_ignores_limit ()
  | cons slot controlSlots =>
      apply get_ignores_limit
      · intro before limit
        rw [live_controls_under_limit]
      · intro before
        apply bind_ignores_limit (or_fault_ignores_limit _)
        intro live?
        cases live? with
        | none => exact pure_ignores_limit ()
        | some live =>
            apply bind_ignores_limit (merge_ignores_limit slot live)
            intro place
            apply bind_ignores_limit (state_at_ignores_limit place)
            intro state
            exact bind_ignores_limit (or_fault_ignores_limit _) fun state =>
              set_state_at_ignores_limit place state

theorem measure_ignores_limit (qubit : QubitId) :
    IgnoresLimit (measure qubit : Action R Bool) := by
  unfold measure
  refine get_ignores_limit (fun _ _ => rfl) fun before => ?_
  apply bind_ignores_limit (or_refuse_ignores_limit _)
  intro slot
  refine get_ignores_limit (fun _ _ => rfl) fun before => ?_
  cases before.arena.owner? slot with
  | none => exact throw_ignores_limit _
  | some place =>
      apply bind_ignores_limit (state_at_ignores_limit place)
      intro state
      refine get_ignores_limit (fun _ _ => rfl) fun before => ?_
      apply bind_ignores_limit (or_fault_ignores_limit _)
      rintro ⟨bit, state, draws⟩
      apply bind_ignores_limit (set_state_at_ignores_limit place state)
      intro _
      exact bind_ignores_limit (modify_ignores_limit fun _ _ => rfl)
        fun _ => pure_ignores_limit bit

theorem apply_plugin_ignores_limit (plugin : Plugin R) (targets : List QubitId)
    (arguments : String) (inverse : Bool) (controls : List QubitId) :
    IgnoresLimit (applyPlugin plugin targets arguments inverse controls) := by
  unfold applyPlugin
  apply bind_ignores_limit (operands_ignores_limit _)
  intro slots
  apply get_ignores_limit
  · intro before limit
    rw [live_controls_under_limit]
  · intro before
    apply bind_ignores_limit (or_fault_ignores_limit _)
    intro live?
    cases live? with
    | none => exact pure_ignores_limit none
    | some live =>
        cases slots.take targets.length with
        | nil => exact pure_ignores_limit none
        | cons first rest =>
            apply bind_ignores_limit (merge_ignores_limit first _)
            intro place
            apply bind_ignores_limit (state_at_ignores_limit place)
            intro state
            apply bind_ignores_limit (or_fault_ignores_limit _)
            intro canonical
            apply bind_ignores_limit (or_fault_ignores_limit _)
            rintro ⟨canonical, call, outcome⟩
            apply bind_ignores_limit (or_fault_ignores_limit _)
            intro restored
            apply bind_ignores_limit (set_state_at_ignores_limit place restored)
            intro _
            cases outcome with
            | ok => exact pure_ignores_limit (some call)
            | error stop => exact throw_ignores_limit stop

theorem take_dump_ignores_limit (qubits : List QubitId) :
    IgnoresLimit (takeDump qubits : Action R Nat) := by
  have append (record : Dump R) : IgnoresLimit (do
      let index := (← get).dumps.size
      modify fun simulator => { simulator with dumps := simulator.dumps.push record }
      pure index : Action R Nat) := by
    refine get_ignores_limit (fun _ _ => rfl) fun before => ?_
    exact bind_ignores_limit (modify_ignores_limit fun _ _ => rfl) fun _ => pure_ignores_limit _
  unfold takeDump
  apply bind_ignores_limit (operands_ignores_limit qubits)
  intro slots
  cases slots with
  | nil => exact append _
  | cons first rest =>
      apply bind_ignores_limit (merge_ignores_limit first rest)
      intro place
      apply bind_ignores_limit (state_at_ignores_limit place)
      intro state
      apply bind_ignores_limit (or_fault_ignores_limit _)
      intro canonical
      apply bind_ignores_limit (or_fault_ignores_limit _)
      intro restored
      exact bind_ignores_limit (set_state_at_ignores_limit place restored) fun _ => append _

/-! ### Allocating -/

/-- An allocation has a slot to take: a parked one if it is dirty, a free one or a new one. -/
def OffersSlot (simulator : Simulator R) (dirty : Bool) : Prop :=
  (dirty = true ∧ simulator.parkedSlots ≠ []) ∨ simulator.freeSlots ≠ [] ∨
    simulator.nextSlot < simulator.maxQubits

omit [Scalar R] in
theorem offers_slot_unlimited {simulator : Simulator R} {dirty : Bool}
    (bound : simulator.maxQubits ≤ width) (offers : simulator.OffersSlot dirty) :
    (simulator.underLimit width).OffersSlot dirty := by
  rcases offers with parked | free | room
  · exact Or.inl parked
  · exact Or.inr (Or.inl free)
  · exact Or.inr (Or.inr (Nat.lt_of_lt_of_le room bound))

theorem alloc_without_slot {simulator : Simulator R} {qubit : QubitId} {dirty : Bool}
    (unknown : simulator.allocation[qubit]? = none) (nothing : ¬simulator.OffersSlot dirty) :
    alloc qubit dirty simulator =
      .error (.refused (.limitExceeded simulator.maxQubits)) simulator := by
  have unlisted : ¬simulator.allocation.contains qubit = true := by
    rw [Std.ExtTreeMap.contains_eq_isSome_getElem?, unknown]
    decide
  simp only [OffersSlot, not_or, not_and, not_not] at nothing
  obtain ⟨noneParked, noneFree, full⟩ := nothing
  have stuck : takeSlot simulator =
      .error (.refused (.limitExceeded simulator.maxQubits)) simulator := by
    unfold takeSlot
    rw [bind_get, noneFree]
    change (if simulator.nextSlot < simulator.maxQubits then _ else _ : Action R Nat) _ = _
    rw [if_neg full]
    rfl
  have clean : allocClean qubit simulator =
      .error (.refused (.limitExceeded simulator.maxQubits)) simulator := by
    unfold allocClean
    rw [bind_of_error stuck]
  unfold alloc
  rw [bind_get, if_neg unlisted]
  cases dirty with
  | false => exact clean
  | true =>
      rw [if_pos rfl, noneParked rfl]
      exact clean

/-- A slot can be taken without the limit, or under both limits. -/
def HasRoom (simulator : Simulator R) (limit : Nat) : Prop :=
  simulator.freeSlots ≠ [] ∨
    simulator.nextSlot < simulator.maxQubits ∧ simulator.nextSlot < limit

omit [Scalar R] in
theorem take_slot_under_limit {simulator : Simulator R} {limit : Nat}
    (room : simulator.HasRoom limit) :
    takeSlot (simulator.underLimit limit) = resultUnder limit (takeSlot simulator) := by
  unfold takeSlot
  rw [bind_get, bind_get]
  rw [show (simulator.underLimit limit).freeSlots = simulator.freeSlots from rfl]
  cases free : simulator.freeSlots with
  | cons slot rest => rfl
  | nil =>
      obtain ⟨here, there⟩ := room.resolve_left (absurd free)
      change (if simulator.nextSlot < limit then _ else _ : Action R Nat) _ = _
      rw [if_pos there]
      dsimp only
      rw [if_pos here]
      rfl

theorem alloc_clean_under_limit {simulator : Simulator R} {limit : Nat}
    (room : simulator.HasRoom limit) (qubit : QubitId) :
    allocClean qubit (simulator.underLimit limit) =
      resultUnder limit (allocClean qubit simulator) := by
  have onward (slot : Nat) : IgnoresLimit (do
      let arena ← orFault ((← get).arena.insertSingleton slot)
      modify fun simulator => { simulator with arena }
      occupy qubit slot : Action R Unit) := by
    refine get_ignores_limit (fun _ _ => rfl) fun before => ?_
    apply bind_ignores_limit (or_fault_ignores_limit _)
    intro arena
    exact bind_ignores_limit (modify_ignores_limit fun _ _ => rfl) fun _ =>
      modify_ignores_limit fun _ _ => rfl
  have taken := take_slot_under_limit room
  unfold allocClean
  cases answer : takeSlot simulator with
  | ok slot after =>
      rw [answer] at taken
      rw [bind_of_ok taken, bind_of_ok answer]
      exact onward slot after limit
  | error stop after =>
      rw [answer] at taken
      rw [bind_of_error taken, bind_of_error answer]
      rfl

/-- An allocation that needs no slot, or has one under both limits, is the same under both. -/
theorem alloc_under_limit {simulator : Simulator R} {limit : Nat} {qubit : QubitId} {dirty : Bool}
    (offers : simulator.allocation[qubit]? = none →
      simulator.OffersSlot dirty ∧ (simulator.underLimit limit).OffersSlot dirty) :
    alloc qubit dirty (simulator.underLimit limit) =
      resultUnder limit (alloc qubit dirty simulator) := by
  unfold alloc
  rw [bind_get, bind_get]
  by_cases known : simulator.allocation.contains qubit = true
  · have alsoKnown : (simulator.underLimit limit).allocation.contains qubit = true := known
    rw [if_pos known, if_pos alsoKnown]
    rfl
  · have alsoUnknown : ¬(simulator.underLimit limit).allocation.contains qubit = true := known
    rw [if_neg known, if_neg alsoUnknown]
    obtain ⟨here, there⟩ := offers
      (Std.ExtTreeMap.getElem?_eq_none_of_contains_eq_false (Bool.eq_false_iff.2 known))
    have clean (unparked : dirty = true → simulator.parkedSlots = []) :
        allocClean qubit (simulator.underLimit limit) =
          resultUnder limit (allocClean qubit simulator) := by
      apply alloc_clean_under_limit
      rcases here with ⟨isDirty, parked⟩ | free | roomHere
      · exact absurd (unparked isDirty) parked
      · exact Or.inl free
      · rcases there with ⟨isDirty, parked⟩ | free | roomThere
        · exact absurd (unparked isDirty) parked
        · exact Or.inl free
        · exact Or.inr ⟨roomHere, roomThere⟩
    cases dirty with
    | false => exact clean (fun absurdity => by cases absurdity)
    | true =>
        rw [if_pos rfl, if_pos rfl]
        rw [show (simulator.underLimit limit).parkedSlots = simulator.parkedSlots from rfl]
        cases parked : simulator.parkedSlots with
        | nil => exact clean fun _ => parked
        | cons slot rest => rfl

/-! ### Runs that change the limit -/

/-- Simulators that come of new ones by operations and changes of the limit, in any order. -/
inductive Arises : Simulator R → Prop where
  | seeded {settings : Settings} (inForce : settings.InForce) (seed : UInt64) :
      Arises (ofSeed settings.maxQubits seed)
  | limited {before : Simulator R} (arises : Arises before) (maxQubits : Nat) :
      Arises (before.withMaxQubits maxQubits)
  | performed {before : Simulator R} (arises : Arises before) (operation : Operation R) :
      Arises (leaves (operation.perform before))

/-- Well-formed, except that a lowered limit may lie below the slots already handed out. -/
structure Sound (simulator : Simulator R) : Prop where
  limit_le : simulator.maxQubits ≤ width
  unlimited : (simulator.underLimit width).WellFormed

theorem operation_ignores_limit {operation : Operation R}
    (other : ∀ qubit dirty, operation ≠ .alloc qubit dirty) : IgnoresLimit operation.perform := by
  cases operation with
  | alloc qubit dirty => exact absurd rfl (other qubit dirty)
  | free qubit dirty => exact free_ignores_limit qubit dirty
  | gate gate target controls => exact apply_gate_ignores_limit gate target controls
  | measure qubit => exact discard_ignores_limit (measure_ignores_limit qubit)
  | plugin plugin targets arguments inverse controls =>
      exact discard_ignores_limit
        (apply_plugin_ignores_limit plugin targets arguments inverse controls)
  | dump qubits => exact discard_ignores_limit (take_dump_ignores_limit qubits)
  | setRegister register value => exact modify_ignores_limit fun _ _ => rfl

/-- An operation is refused for want of a slot, or does the same without a limit. -/
theorem perform_unlimited {simulator : Simulator R} (bound : simulator.maxQubits ≤ width)
    (operation : Operation R) :
    leaves (operation.perform simulator) = simulator ∨
      operation.perform (simulator.underLimit width) =
        resultUnder width (operation.perform simulator) ∧
      operation.perform simulator =
        resultUnder simulator.maxQubits (operation.perform simulator) := by
  by_cases isAlloc : ∃ qubit dirty, operation = .alloc qubit dirty
  · obtain ⟨qubit, dirty, same⟩ := isAlloc
    rw [same]
    by_cases stuck : simulator.allocation[qubit]? = none ∧ ¬simulator.OffersSlot dirty
    · left
      rw [Operation.perform, alloc_without_slot stuck.1 stuck.2]
      rfl
    · right
      have offers (unknown : simulator.allocation[qubit]? = none) :
          simulator.OffersSlot dirty := by
        by_contra nothing
        exact stuck ⟨unknown, nothing⟩
      have here : alloc qubit dirty (simulator.underLimit simulator.maxQubits) =
          resultUnder simulator.maxQubits (alloc qubit dirty simulator) :=
        alloc_under_limit fun unknown => ⟨offers unknown, offers unknown⟩
      exact ⟨alloc_under_limit fun unknown =>
        ⟨offers unknown, offers_slot_unlimited bound (offers unknown)⟩, here⟩
  · right
    have ignores : IgnoresLimit operation.perform :=
      operation_ignores_limit fun qubit dirty same => isAlloc ⟨qubit, dirty, same⟩
    exact ⟨ignores simulator width, ignores simulator simulator.maxQubits⟩

theorem sound_perform {simulator : Simulator R} (sound : simulator.Sound)
    (operation : Operation R) : (leaves (operation.perform simulator)).Sound := by
  rcases perform_unlimited sound.limit_le operation with unchanged | ⟨same, kept⟩
  · rw [unchanged]
    exact sound
  · have after := perform_well_formed sound.unlimited operation
    rw [same, leaves_result_under] at after
    refine ⟨?_, after⟩
    rw [kept, leaves_result_under]
    exact sound.limit_le

theorem sound_with_max_qubits {simulator : Simulator R} (sound : simulator.Sound)
    (maxQubits : Nat) : (simulator.withMaxQubits maxQubits).Sound :=
  ⟨Nat.min_le_right maxQubits width, sound.unlimited⟩

/-- Every run leaves a sound simulator, also one that changes the limit on its way. -/
theorem arises_sound {simulator : Simulator R} (arises : simulator.Arises) : simulator.Sound := by
  induction arises with
  | seeded inForce seed =>
      exact ⟨inForce.max_qubits_le, of_seed_well_formed (Nat.le_refl width) seed⟩
  | limited _ maxQubits ih => exact sound_with_max_qubits ih maxQubits
  | performed _ operation ih => exact sound_perform ih operation

inductive ArisesBy (allowed : Simulator R → Operation R → Prop) : Simulator R → Prop where
  | seeded {settings : Settings} (inForce : settings.InForce) (seed : UInt64) :
      ArisesBy allowed (ofSeed settings.maxQubits seed)
  | limited {before : Simulator R} (arises : ArisesBy allowed before) (maxQubits : Nat) :
      ArisesBy allowed (before.withMaxQubits maxQubits)
  | performed {before : Simulator R} (arises : ArisesBy allowed before) {operation : Operation R}
      (fits : allowed before operation) : ArisesBy allowed (leaves (operation.perform before))

theorem ArisesBy.arises {allowed : Simulator R → Operation R → Prop} {simulator : Simulator R}
    (arises : ArisesBy allowed simulator) : simulator.Arises := by
  induction arises with
  | seeded inForce seed => exact .seeded inForce seed
  | limited _ maxQubits ih => exact .limited ih maxQubits
  | performed _ _ ih => exact .performed ih _

/-! ### Calls under any limit -/

omit [Scalar R] in
theorem of_unlimited {α : Type} {call : Action R α} (ignores : IgnoresLimit call)
    (simulator : Simulator R) :
    call simulator =
      resultUnder simulator.maxQubits (call (simulator.underLimit width)) :=
  ignores (simulator.underLimit width) simulator.maxQubits

theorem free_outcome_of_sound {simulator : Simulator R} (sound : simulator.Sound)
    (qubit : QubitId) (dirty : Bool) :
    FreeOutcome qubit dirty simulator (free qubit dirty simulator) := by
  have answer := of_unlimited (free_ignores_limit qubit dirty) simulator
  have outcome := free_outcome sound.unlimited qubit dirty
  rw [answer]
  generalize free qubit dirty (simulator.underLimit width) = result at outcome
  cases outcome with
  | refused unknown => exact .refused unknown
  | parked found isDirty => exact .parked found isDirty
  | cleaned found isClean owner stands sampled detaches arena =>
      exact .cleaned found isClean owner stands sampled detaches arena

theorem measure_outcome_of_sound {simulator : Simulator R} (sound : simulator.Sound)
    (qubit : QubitId) : MeasureOutcome qubit simulator (measure qubit simulator) := by
  have answer := of_unlimited (measure_ignores_limit qubit) simulator
  have outcome := measure_outcome sound.unlimited qubit
  rw [answer]
  generalize measure qubit (simulator.underLimit width) = result at outcome
  cases outcome with
  | refused unknown => exact .refused unknown
  | measured found owner stands sampled => exact .measured found owner stands sampled

/-- A dirty allocation takes over what was parked last. -/
theorem alloc_unparked {before : Simulator R} {qubit : QubitId} {slot : Nat} {rest : List Nat}
    (unknown : before.allocation[qubit]? = none) (parked : before.parkedSlots = slot :: rest) :
    alloc qubit true before = .ok () { before with
      parkedSlots := rest
      allocation := before.allocation.insert qubit slot } := by
  have unlisted : ¬before.allocation.contains qubit = true := by
    rw [Std.ExtTreeMap.contains_eq_isSome_getElem?, unknown]
    decide
  rw [alloc, Action.bind_get, if_neg unlisted, if_pos rfl, parked]
  rfl

theorem alloc_known {before : Simulator R} {qubit : QubitId} {slot : Nat}
    (found : before.allocation[qubit]? = some slot) (dirty : Bool) :
    alloc qubit dirty before = .error (.refused (.alreadyAllocated qubit)) before := by
  have known : before.allocation.contains qubit = true := by
    rw [Std.ExtTreeMap.contains_eq_isSome_getElem?, found]
    rfl
  rw [alloc, Action.bind_get, if_pos known]
  rfl

omit [Scalar R] in
theorem Takes.unique {before : Simulator R} {slot other next nextOther : Nat}
    {rest restOther : List Nat} (takes : Takes before slot rest next)
    (takesOther : Takes before other restOther nextOther) :
    slot = other ∧ rest = restOther ∧ next = nextOther := by
  cases takes with
  | recycled free =>
      cases takesOther with
      | recycled freeOther =>
          rw [free, List.cons.injEq] at freeOther
          exact ⟨freeOther.1, freeOther.2, rfl⟩
      | issued noneFree => cases free.symm.trans noneFree
  | issued noneFree =>
      cases takesOther with
      | recycled free => cases free.symm.trans noneFree
      | issued => exact ⟨rfl, rfl, rfl⟩

omit [Scalar R] in
theorem takes_of_offers {before : Simulator R} {dirty : Bool}
    (unparked : dirty = true → before.parkedSlots = []) (offers : before.OffersSlot dirty) :
    ∃ slot rest next, Takes before slot rest next := by
  cases free : before.freeSlots with
  | cons slot rest => exact ⟨slot, rest, _, .recycled free⟩
  | nil =>
      rcases offers with ⟨isDirty, parked⟩ | some | room
      · exact absurd (unparked isDirty) parked
      · exact absurd free some
      · exact ⟨_, _, _, .issued free room⟩

theorem alloc_taking {before : Simulator R} (sound : before.Sound) {qubit : QubitId}
    {dirty : Bool} (unknown : before.allocation[qubit]? = none)
    (unparked : dirty = true → before.parkedSlots = []) (offers : before.OffersSlot dirty)
    {slot next : Nat} {rest : List Nat} (takes : Takes before slot rest next) :
    ∃ (place : Nat) (grown : Arena R),
      Arena.Inserts before.arena grown slot place ∧ grown.WellFormed ∧
      alloc qubit dirty before = .ok () { before with
        freeSlots := rest
        nextSlot := next
        arena := grown
        allocation := before.allocation.insert qubit slot } := by
  have roomy : Takes (before.underLimit width) slot rest next := by
    cases takes with
    | recycled free => exact .recycled free
    | issued noneFree room => exact .issued noneFree (Nat.lt_of_lt_of_le room sound.limit_le)
  have answer : alloc qubit dirty before =
      resultUnder before.maxQubits (alloc qubit dirty (before.underLimit width)) :=
    @alloc_under_limit R _ (before.underLimit width) before.maxQubits qubit dirty
      fun _ => ⟨offers_slot_unlimited sound.limit_le offers, offers⟩
  have outcome := alloc_outcome sound.unlimited qubit dirty
  rw [answer]
  generalize alloc qubit dirty (before.underLimit width) = unlimited at outcome
  cases outcome with
  | known known =>
      change before.allocation.contains qubit = true at known
      rw [Std.ExtTreeMap.contains_eq_isSome_getElem?, unknown] at known
      cases known
  | unparked _ isDirty parked => cases (unparked isDirty).symm.trans parked
  | exhausted _ _ noneFree full =>
      cases roomy with
      | recycled free => cases free.symm.trans noneFree
      | issued _ room => exact absurd full (Nat.ne_of_lt room)
  | fresh _ _ takesHere inserts grown =>
      obtain ⟨rfl, rfl, rfl⟩ := roomy.unique takesHere
      exact ⟨_, _, inserts, grown, rfl⟩

end Simulator

end SparseQuantum
