import Mathlib
import SparseQuantum.Proofs.ConstantAddition

/-!
# How calls end

Each call ends in one way for each of the cases that can be told apart beforehand: whether a qubit
is known, whether a slot can be taken, whether a control decides, whether the plugin gives up. A
call is then an equation, which can be used on two simulators at once.
-/

namespace SparseQuantum

set_option autoImplicit false

namespace Simulator

open Arena

variable {R : Type} [Scalar R]

theorem WellFormed.sound {simulator : Simulator R} (wellFormed : simulator.WellFormed) :
    simulator.Sound where
  limit_le := wellFormed.max_le
  unlimited := { wellFormed with
    next_le := Nat.le_trans wellFormed.next_le wellFormed.max_le
    max_le := Nat.le_refl width }

/-! ### Allocating and freeing -/

/-- A slot can be handed out unless as many are in use as there can be. -/
theorem owned_lt_iff {simulator : Simulator R} (wellFormed : simulator.WellFormed) :
    {slot | simulator.arena.Owns slot}.ncard < simulator.maxQubits ↔
      simulator.freeSlots ≠ [] ∨ simulator.nextSlot < simulator.maxQubits := by
  have bound := wellFormed.next_le
  have within : {slot | simulator.arena.Owns slot} ⊆ Set.Iio simulator.nextSlot := by
    intro slot owned
    by_contra fresh
    exact wellFormed.not_owned_of_fresh (Nat.le_of_not_lt fresh) owned
  have size : (Set.Iio simulator.nextSlot).ncard = simulator.nextSlot := by
    rw [← Finset.coe_Iio, Set.ncard_coe_finset, Nat.card_Iio]
  cases free : simulator.freeSlots with
  | nil =>
      have all : {slot | simulator.arena.Owns slot} = Set.Iio simulator.nextSlot := by
        refine within.antisymm fun slot issued => ?_
        have known := (wellFormed.issued_iff slot).1 issued
        rw [free] at known
        change simulator.arena.Owns slot
        rw [wellFormed.owns_iff]
        simpa using known
      rw [all, size]
      simp
  | cons slot rest =>
      have listed : slot ∈ simulator.freeSlots := by
        rw [free]
        exact List.mem_cons_self
      have issued : slot < simulator.nextSlot :=
        (wellFormed.issued_iff slot).2 (Or.inr (Or.inl listed))
      have fewer := Set.ncard_lt_ncard ((Set.ssubset_iff_of_subset within).2
        ⟨slot, issued, wellFormed.not_owned_of_free listed⟩) (Set.finite_Iio _)
      rw [size] at fewer
      simp only [ne_eq, reduceCtorEq, not_false_eq_true, true_or, iff_true]
      omega

/-- With a slot to take, an unknown qubit gets one that nothing owns. -/
theorem alloc_fresh {before : Simulator R} (wellFormed : before.WellFormed) {qubit : QubitId}
    {dirty : Bool} (unknown : before.allocation[qubit]? = none)
    (unparked : dirty = true → before.parkedSlots = []) (offers : before.OffersSlot dirty) :
    ∃ (slot next place : Nat) (rest : List Nat) (grown : Arena R), slot < width ∧
      ¬before.arena.Owns slot ∧ Inserts before.arena grown slot place ∧ grown.WellFormed ∧
      alloc qubit dirty before = .ok () { before with
        freeSlots := rest
        nextSlot := next
        arena := grown
        allocation := before.allocation.insert qubit slot } := by
  obtain ⟨slot, rest, next, takes⟩ := takes_of_offers unparked offers
  obtain ⟨place, grown, inserts, formed, answer⟩ :=
    alloc_taking wellFormed.sound unknown unparked offers takes
  refine ⟨slot, next, place, rest, grown, ?_, takes.not_owned wellFormed, inserts, formed, answer⟩
  cases takes with
  | recycled free =>
      have listed : slot ∈ before.freeSlots := by
        rw [free]
        exact List.mem_cons_self
      exact wellFormed.slot_lt_width ((wellFormed.issued_iff slot).2 (Or.inr (Or.inl listed)))
  | issued _ room => exact Nat.lt_of_lt_of_le room wellFormed.max_le

theorem free_unknown {before : Simulator R} {qubit : QubitId}
    (unknown : before.allocation[qubit]? = none) (dirty : Bool) :
    free qubit dirty before = .error (.refused (.notAllocated qubit)) before := by
  rw [free, Action.bind_get, slotOf, unknown]
  rfl

/-- A dirty free parks the slot and leaves its partition alone. -/
theorem free_parked {before : Simulator R} {qubit : QubitId} {slot : Nat}
    (found : before.allocation[qubit]? = some slot) :
    free qubit true before = .ok () { before with
      allocation := before.allocation.erase qubit
      parkedSlots := slot :: before.parkedSlots } := by
  rw [free, Action.bind_get, slotOf, found]
  rfl

/-- A clean free measures the slot, resets it and takes it out of its partition. -/
theorem free_cleaned {before : Simulator R} (sound : before.Sound) {qubit : QubitId} {slot : Nat}
    (found : before.allocation[qubit]? = some slot) :
    ∃ (place : Nat) (partition : Partition R) (bit : Bool) (draws : Draws) (least : Arena R),
      before.arena.owner? slot = some place ∧
      before.arena.partitions[place]? = some partition ∧
      partition.state.sample slot before.draws = (bit, draws) ∧
      Detaches (before.arena.withState place (partition.state.collapse slot bit true)) least slot
        place { partition with state := partition.state.collapse slot bit true } ∧
      free qubit false before = .ok () { before with
        allocation := before.allocation.erase qubit
        arena := least
        draws := draws
        freeSlots := slot :: before.freeSlots } := by
  have outcome := free_outcome_of_sound sound qubit false
  generalize free qubit false before = result at outcome ⊢
  cases outcome with
  | refused unknown =>
      rw [found] at unknown
      cases unknown
  | parked _ isDirty => cases isDirty
  | cleaned foundHere _ owner stands sampled detaches =>
      rw [found, Option.some.injEq] at foundHere
      rw [← foundHere] at owner sampled detaches ⊢
      exact ⟨_, _, _, _, _, owner, stands, sampled, detaches, rfl⟩

theorem measure_unknown {before : Simulator R} {qubit : QubitId}
    (unknown : before.allocation[qubit]? = none) :
    measure qubit before = .error (.refused (.notAllocated qubit)) before := by
  rw [measure, Action.bind_get, slotOf, unknown]
  rfl

theorem measure_found {before : Simulator R} (sound : before.Sound) {qubit : QubitId} {slot : Nat}
    (found : before.allocation[qubit]? = some slot) :
    ∃ (place : Nat) (partition : Partition R) (bit : Bool) (draws : Draws),
      before.arena.owner? slot = some place ∧
      before.arena.partitions[place]? = some partition ∧
      partition.state.sample slot before.draws = (bit, draws) ∧
      measure qubit before = .ok bit { before with
        arena := before.arena.withState place (partition.state.collapse slot bit false)
        draws := draws
        bits := before.bits.insert qubit bit } := by
  have outcome := measure_outcome_of_sound sound qubit
  generalize measure qubit before = result at outcome ⊢
  cases outcome with
  | refused unknown =>
      rw [found] at unknown
      cases unknown
  | measured foundHere owner stands sampled =>
      rw [found, Option.some.injEq] at foundHere
      rw [← foundHere] at owner sampled ⊢
      exact ⟨_, _, _, _, owner, stands, sampled, rfl⟩

/-! ### Gates and plugins -/

theorem apply_gate_refused {before : Simulator R} {gate : Gate R} {target : QubitId}
    {controls : List QubitId} {error : SimulatorError}
    (refused : before.slotsOf [] (target :: controls) = .error error) :
    applyGate gate target controls before = .error (.refused error) before := by
  rw [applyGate, Action.bind_of_error (operands_of_refused refused)]

theorem apply_gate_skipped {before : Simulator R} (wellFormed : before.WellFormed) (gate : Gate R)
    {target : QubitId} {controls : List QubitId} {slot : Nat} {controlSlots : List Nat}
    (found : before.Operands (target :: controls) (slot :: controlSlots))
    (decided : ∃ control ∈ controlSlots, before.arena.known? control = some false) :
    applyGate gate target controls before = .ok () before := by
  have read := (slots_of_operands before _ _).2 found
  have outcome := gate_outcome wellFormed gate target controls
  generalize applyGate gate target controls before = result at outcome ⊢
  cases outcome with
  | refused refused => cases read.symm.trans refused
  | skipped => rfl
  | applied foundHere matters =>
      cases read.symm.trans ((slots_of_operands before _ _).2 foundHere)
      obtain ⟨control, member, zero⟩ := decided
      exact absurd zero (matters.undecided control member)

theorem apply_gate_eq {before : Simulator R} (wellFormed : before.WellFormed) (gate : Gate R)
    {target : QubitId} {controls : List QubitId} {slot place : Nat} {controlSlots live : List Nat}
    (found : before.Operands (target :: controls) (slot :: controlSlots))
    (matters : Live before controlSlots live) {merged : Arena R} {partition : Partition R}
    (gathers : Gathers before.arena merged slot live place partition) :
    applyGate gate target controls before = .ok () { before with
      arena := merged.withState place (partition.state.applyGate gate slot live) } := by
  have read := (slots_of_operands before _ _).2 found
  have outcome := gate_outcome wellFormed gate target controls
  generalize applyGate gate target controls before = result at outcome ⊢
  cases outcome with
  | refused refused => cases read.symm.trans refused
  | skipped foundHere decided =>
      cases read.symm.trans ((slots_of_operands before _ _).2 foundHere)
      obtain ⟨control, member, zero⟩ := decided
      exact absurd zero (matters.undecided control member)
  | applied foundHere mattersHere gathersHere =>
      cases read.symm.trans ((slots_of_operands before _ _).2 foundHere)
      cases matters.kept.trans mattersHere.kept.symm
      cases gathers.result.symm.trans gathersHere.result
      cases gathers.found.symm.trans gathersHere.found
      rfl

theorem apply_plugin_refused {before : Simulator R} {plugin : Plugin R}
    {targets controls : List QubitId} {arguments : String} {inverse : Bool}
    {error : SimulatorError} (refused : before.slotsOf [] (targets ++ controls) = .error error) :
    applyPlugin plugin targets arguments inverse controls before =
      .error (.refused error) before := by
  rw [applyPlugin, Action.bind_of_error (operands_of_refused refused)]

theorem apply_plugin_idle {before : Simulator R} (wellFormed : before.WellFormed)
    (plugin : Plugin R) {controls : List QubitId} (arguments : String) (inverse : Bool)
    {slots : List Nat} (found : before.Operands controls slots) :
    applyPlugin plugin [] arguments inverse controls before = .ok none before := by
  have read := (slots_of_operands before _ _).2 found
  have outcome := plugin_outcome wellFormed plugin [] arguments inverse controls
  generalize applyPlugin plugin [] arguments inverse controls before = result at outcome ⊢
  cases outcome with
  | refused refused => cases read.symm.trans refused
  | skipped => rfl
  | idle => rfl
  | ran _ count => cases count

/-- Where the addition gives up, its operands stay gathered and nothing else changes. -/
theorem add_gives_up {before : Simulator R} (wellFormed : before.WellFormed)
    {targets controls : List QubitId} {first place : Nat} {rest controlSlots live : List Nat}
    (found : before.Operands (targets ++ controls) (first :: rest ++ controlSlots))
    (count : (first :: rest).length = targets.length) (matters : Live before controlSlots live)
    {merged : Arena R} {partition : Partition R}
    (gathers : Gathers before.arena merged first (rest ++ live) place partition)
    {arguments reason : String}
    (givesUp : ∀ call : PluginCall R, call.targets = targets.length → call.arguments = arguments →
      AddConstant.plugin.run call = Plugin.fail AddConstant.name reason call.state)
    (inverse : Bool) :
    applyPlugin AddConstant.plugin targets arguments inverse controls before =
      .error (.refused (.pluginFailed AddConstant.name reason))
        { before with arena := merged } := by
  rw [apply_plugin_eq wellFormed found count matters gathers rfl rfl]
  generalize hands : handed (_ : SparseState R) targets.length live.length arguments inverse = call
  have count : call.targets = targets.length := by
    rw [← hands]
    rfl
  have text : call.arguments = arguments := by
    rw [← hands]
    rfl
  rw [givesUp call count text, Plugin.fail]
  rfl

end Simulator

end SparseQuantum
