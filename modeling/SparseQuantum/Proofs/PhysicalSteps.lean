import Mathlib
import SparseQuantum.Proofs.CallEndings
import SparseQuantum.Proofs.GroupedAmplitudes
import SparseQuantum.Proofs.ModularAddition
import SparseQuantum.Proofs.NormalizedPartitions

/-!
# Calls seen in the product of all partitions

As long as every partition is a state of total probability 1, the product of all partitions tells
what each call does to the qubits: a new qubit cannot be seen, a gate acts as its matrix, a
measurement collapses the product, an addition moves its amplitudes, and a dump shows the
probabilities that a measurement would have. Each call leaves such a simulator again, so that a
program can be followed call by call without a look at how its qubits are grouped.
-/

namespace SparseQuantum

set_option autoImplicit false

variable {R : Type}

/-! ### Dumps of one qubit -/

namespace SparseState

variable [ExactScalar R]

/-- The probability that a dump has at a word is that of the number the word spells. -/
theorem dump_probability (state : SparseState R) (size : Nat) (low : Word) :
    (state.dump size).probability low =
      state.weight fun index => index.low size == low.toNat := by
  have weight : (state.weight fun index => index.low size == low.toNat) =
      ((state.amplitudesAt size low.toNat).map Amplitude.normSq).sum := by
    rw [SparseState.weight, Amplitudes.weight, amplitudesAt, List.map_map]
    rfl
  rw [weight, Dump.probability]
  cases lookup : (state.dump size).group? low with
  | some group =>
      have here := List.find?_some lookup
      have listed := amplitudes_perm_of_is_at (List.mem_of_find?_eq_some lookup) here
      rw [← (listed.map Amplitude.normSq).sum_eq, List.sum_eq_foldl]
      rfl
  | none =>
      have nothing : state.amplitudesAt size low.toNat = [] := by
        rw [amplitudesAt, List.map_eq_nil_iff, List.filter_eq_nil_iff]
        intro entry member same
        obtain ⟨group, listed, here⟩ := (exists_group_at_iff state size low).2
          ⟨entry.1, stores_of_mem_entries member, of_decide_eq_true same⟩
        exact List.find?_eq_none.1 lookup group listed here
      rw [nothing]
      rfl

theorem dump_slot_probability (state : SparseState R) {slot : Nat} (inside : slot < width)
    (bit : Bool) :
    ((state.permute (Layout.permutation (Layout.swaps [slot]))).dump 1).probability
        (if bit then 1 else 0) = state.branchProbability slot bit := by
  have distinct : [slot].Nodup := List.nodup_singleton slot
  have below : ∀ other ∈ [slot], other < width := fun other member => by
    rw [List.mem_singleton.1 member]
    exact inside
  have rearranges := Layout.rearranges_permutation (Layout.swaps_bounded distinct below)
  have there : Layout.permutation (Layout.swaps [slot]) slot = 0 :=
    Layout.permutation_swaps_wanted distinct Nat.zero_lt_one
  have number (index : BasisState) :
      ((index.permute (Layout.permutation (Layout.swaps [slot]))).low 1 ==
        (if bit then (1 : Word) else 0).toNat) = (index.isOne slot == bit) := by
    have read := BasisState.is_one_permute_apply rearranges index slot
    rw [there, ← BasisState.test_bit_value] at read
    have lowest : (index.permute (Layout.permutation (Layout.swaps [slot]))).low 1 =
        (index.isOne slot).toNat := by
      rw [← read, BasisState.low, Nat.testBit_zero]
      change _ % 2 = _
      rcases Nat.mod_two_eq_zero_or_one
        (index.permute (Layout.permutation (Layout.swaps [slot]))).value with even | odd
      · rw [even]
        rfl
      · rw [odd]
        rfl
    rw [lowest]
    cases index.isOne slot <;> cases bit <;> rfl
  rw [dump_probability, branch_probability_eq, weight, weight,
    Amplitudes.weight_perm (permute_entries_perm rearranges state), Amplitudes.weight,
    Amplitudes.weight, List.filter_map, List.map_map]
  simp only [Function.comp_def, number]

theorem total_probability_added {state added : SparseState R} {slots controls : List Nat}
    (distinct : slots.Nodup) (inside : ∀ slot ∈ slots, slot < width)
    (apart : List.Disjoint slots controls) {amount : Int}
    (moves : ∀ index, added.get? (BasisState.addWhere controls slots amount index) =
      state.get? index) : added.totalProbability = state.totalProbability := by
  have same (index : BasisState) :
      added.value (BasisState.addition distinct inside apart amount index) = state.value index :=
    congrArg (Option.getD · 0) (moves index)
  rw [total_probability_eq_sum, total_probability_eq_sum,
    ← Equiv.sum_comp (BasisState.addition distinct inside apart amount)]
  simp only [same]

end SparseState

namespace Simulator

open Arena SparseState

/-- The product of all partitions is a state of total probability 1, and so is each partition. -/
structure Physical [ExactScalar R] (simulator : Simulator R) : Prop where
  well_formed : simulator.WellFormed
  faithful : simulator.arena.Faithful
  normalized : simulator.arena.Normalized

section Start

variable [ExactScalar R] {maxQubits : Nat} (seed : UInt64) (draws : Draws)

theorem physical_of_seed (bound : maxQubits ≤ width) :
    ((ofSeed maxQubits seed : Simulator R).withDraws draws).Physical where
  well_formed := (of_seed_well_formed bound seed).with_draws draws
  faithful := ⟨empty_well_formed, empty_local, zero_free_empty⟩
  normalized := normalized_empty

theorem global_of_seed :
    ((ofSeed maxQubits seed : Simulator R).withDraws draws).globalState = .ground := rfl

end Start

theorem Operands.unique {simulator : Simulator R} {qubits : List QubitId} {slots others : List Nat}
    (found : simulator.Operands qubits slots) (again : simulator.Operands qubits others) :
    slots = others :=
  List.map_injective_iff.2 (Option.some_injective Nat) (found.2.symm.trans again.2)

namespace Physical

section Exact

variable [ExactScalar R] {before : Simulator R} (physical : before.Physical)

include physical

theorem total_probability : before.globalState.totalProbability = 1 :=
  total_probability_whole physical.faithful physical.normalized

theorem zero_free : before.globalState.ZeroFree := zero_free_whole physical.faithful.zero_free

theorem stores_some : ∃ index, before.globalState.Stores index := by
  have possible : before.globalState.weight (fun _ => true) ≠ 0 := by
    rw [← total_probability_eq, physical.total_probability]
    exact one_ne_zero
  obtain ⟨index, stored, _⟩ := stores_of_weight possible
  exact ⟨index, stored⟩

/-- Of what makes a simulator physical, a call can only lose the probabilities. -/
theorem performed (operation : Operation R) (keeps : KeepsOthers before operation)
    (normalized : (leaves (operation.perform before)).arena.Normalized) :
    (leaves (operation.perform before)).Physical where
  well_formed := perform_well_formed physical.well_formed operation
  faithful :=
    have regroups := perform_regroups physical.well_formed operation
    ⟨(perform_well_formed physical.well_formed operation).arena,
      regroups_local physical.well_formed physical.faithful.is_local regroups keeps,
      zero_free_regroups physical.faithful.zero_free regroups⟩
  normalized := normalized

/-- A qubit that is new takes the next slot, and the product stays as it is. -/
theorem alloc {qubit : QubitId} (unknown : before.allocation[qubit]? = none)
    (noneFree : before.freeSlots = []) (room : before.nextSlot < before.maxQubits) :
    ∃ after, Simulator.alloc qubit false before = .ok () after ∧ after.Physical ∧
      after.globalState = before.globalState ∧
      after = { before with
        freeSlots := []
        nextSlot := before.nextSlot + 1
        arena := after.arena
        allocation := before.allocation.insert qubit before.nextSlot } := by
  have outcome := alloc_outcome physical.well_formed qubit false
  have kept := physical.performed (.alloc qubit false) trivial
  rw [Operation.perform] at kept
  generalize Simulator.alloc qubit false before = result at outcome kept
  cases outcome with
  | known known =>
      rw [← Std.ExtTreeMap.isSome_getElem?_eq_contains, unknown] at known
      cases known
  | unparked _ isDirty => cases isDirty
  | exhausted _ _ _ full => omega
  | fresh _ _ takes inserts arena =>
      have unowned := takes.not_owned physical.well_formed
      cases takes with
      | recycled free =>
          rw [noneFree] at free
          cases free
      | issued =>
          have normalized := normalized_inserts physical.faithful.well_formed inserts arena
            physical.normalized
          exact ⟨_, rfl, kept normalized,
            inserts_whole physical.faithful inserts arena unowned, rfl⟩

section Measured

variable {qubit : QubitId} {slot : Nat} (found : before.allocation[qubit]? = some slot)

include found

/-- A measurement collapses the product, to a branch that has probability. -/
theorem measure :
    ∃ bit after, Simulator.measure qubit before = .ok bit after ∧ after.Physical ∧
      after.globalState = before.globalState.collapse slot bit false ∧
      before.globalState.branchProbability slot bit ≠ 0 ∧
      after = { before with
        arena := after.arena
        draws := after.draws
        bits := before.bits.insert qubit bit } := by
  have outcome := measure_outcome physical.well_formed qubit
  have kept := physical.performed (.measure qubit) trivial
  rw [Operation.perform, Operation.leaves_discard] at kept
  generalize Simulator.measure qubit before = result at outcome kept
  cases outcome with
  | refused unknown =>
      rw [unknown] at found
      cases found
  | @measured _ place partition bit rest known owner stands sampled =>
      cases found.symm.trans known
      have possible := possible_outcome physical.faithful physical.normalized owner stands sampled
      have collapsed := collapse_global physical.faithful physical.normalized owner stands
        (physical.well_formed.allocated_lt_width ⟨qubit, found⟩) bit false
      have branch := branch_probability_global physical.faithful physical.normalized owner stands
        bit
      exact ⟨bit, _, rfl, kept (normalized_with_state physical.normalized
        (total_probability_collapse possible false)), collapsed, branch.trans_ne possible, rfl⟩

/-- A dump of one qubit records how probable its values are, and the product stays as it is. -/
theorem dump :
    ∃ (record : Dump R) (after : Simulator R),
      takeDump [qubit] before = .ok before.dumps.size after ∧ after.Physical ∧
      after.globalState = before.globalState ∧ record.qubits = 1 ∧
      (∀ bit, record.probability (if bit then 1 else 0) =
        before.globalState.branchProbability slot bit) ∧
      after = { before with arena := after.arena, dumps := before.dumps.push record } := by
  have alone : before.Operands [qubit] [slot] :=
    ⟨List.nodup_singleton qubit, by rw [List.map_singleton, List.map_singleton, found]⟩
  have outcome := dump_outcome physical.well_formed [qubit]
  have kept := physical.performed (.dump [qubit]) trivial
  rw [Operation.perform, Operation.leaves_discard] at kept
  generalize takeDump [qubit] before = result at outcome kept
  cases outcome with
  | refused refused =>
      rw [(slots_of_operands _ _ _).2 alone] at refused
      cases refused
  | empty noQubits => cases noQubits
  | @recorded first place rest merged partition operands gathers =>
      cases alone.unique operands
      have mergedFaithful := faithful_merges gathers.merges physical.faithful
      have normalized := normalized_merges gathers.merges physical.faithful physical.normalized
      have whole : merged.whole = before.globalState :=
        merges_whole gathers.merges physical.faithful
      have member := gathers.members slot List.mem_cons_self
      have inside := physical.well_formed.allocated_lt_width ⟨qubit, found⟩
      refine ⟨_, _, rfl, kept normalized, whole, rfl, fun bit => ?_, rfl⟩
      refine (dump_slot_probability partition.state inside bit).trans ?_
      rw [← whole]
      exact (branch_probability_whole mergedFaithful.well_formed mergedFaithful.is_local normalized
        gathers.found gathers.used member bit).symm

end Measured

/-- Adding a constant to qubits, without controls, moves the amplitudes of the product, of which
none may be too small to be kept. -/
theorem add {targets : List QubitId} {slots : List Nat} (found : before.Operands targets slots)
    (someTarget : targets ≠ []) (fits : targets.length ≤ 64)
    (pruned : before.globalState.Pruned) {arguments : String} {constant : Int64}
    (reads : AddConstant.readConstant arguments = .ok constant) :
    ∃ call after, applyPlugin AddConstant.plugin targets arguments false [] before =
        .ok (some call) after ∧ after.Physical ∧
      (∀ index, after.globalState.get? (BasisState.addAt slots constant.toInt index) =
        before.globalState.get? index) ∧
      after = { before with arena := after.arena } := by
  have operands : before.Operands (targets ++ []) (slots ++ []) := by
    rw [List.append_nil, List.append_nil]
    exact found
  have kept := physical.performed (.plugin AddConstant.plugin targets arguments false [])
    (keeps_others_of_plugin physical.well_formed AddConstant.keeps_others _ _ _ _)
  rw [Operation.perform, Operation.leaves_discard] at kept
  cases slots with
  | nil => exact absurd (List.eq_nil_of_length_eq_zero found.length.symm) someTarget
  | cons first rest =>
      have matters : Live before [] [] := ⟨fun _ member => absurd member List.not_mem_nil, rfl⟩
      have allocated : ∀ slot ∈ first :: (rest ++ []), before.Allocated slot := by
        rw [List.append_nil]
        exact fun _ member => found.allocated member
      obtain ⟨place, merged, partition, gathers⟩ :=
        gather_allocated physical.well_formed first (rest ++ []) allocated
      have mergedFaithful := faithful_merges gathers.merges physical.faithful
      have normalized := normalized_merges gathers.merges physical.faithful physical.normalized
      have whole : merged.whole = before.globalState :=
        merges_whole gathers.merges physical.faithful
      have partPruned : partition.state.Pruned :=
        pruned_of_whole mergedFaithful normalized gathers.found (by rw [whole]; exact pruned)
      obtain ⟨call, added, answer, moves, moved⟩ := add_moves physical.well_formed.sound
        (fun amplitude => zero_add amplitude) physical.faithful.is_local operands found.length fits
        matters gathers partPruned reads
      have anywhere (index : BasisState) :
          BasisState.addWhere [] (first :: rest) constant.toInt index =
            BasisState.addAt (first :: rest) constant.toInt index := if_pos rfl
      obtain ⟨distinct, inside, apart⟩ := operands_placed physical.well_formed.sound operands
      have total : added.totalProbability = 1 :=
        (total_probability_added distinct inside apart moves).trans
          (normalized partition (mem_in_use_iff.2 ⟨place, gathers.used, gathers.found⟩))
      rw [answer] at kept ⊢
      refine ⟨call, _, rfl, kept (normalized_with_state normalized total), fun index => ?_, rfl⟩
      rw [← anywhere, ← whole]
      exact moved index

theorem prunes_only_zeros {gate : Gate R} {target : QubitId} {controls : List QubitId} {slot : Nat}
    {controlSlots : List Nat} (found : before.Operands (target :: controls) (slot :: controlSlots))
    (spares : gate.Spares slot controlSlots before.globalState.value) :
    before.PrunesOnlyZeros gate slot controlSlots := by
  intro live place merged partition matters result stands
  have allocated : ∀ other ∈ [slot] ++ live, before.Allocated other :=
    fun _ member => found.live_allocated matters member
  have below : ∀ other ∈ [slot] ++ live, other < width :=
    found.live_lt_width matters physical.well_formed
  obtain ⟨_, _, _, gathers⟩ := gather_allocated physical.well_formed slot live allocated
  cases gathers.result.symm.trans result
  cases gathers.found.symm.trans stands
  have mergedFaithful := faithful_merges gathers.merges physical.faithful
  have normalized := normalized_merges gathers.merges physical.faithful physical.normalized
  have whole : merged.whole = before.globalState := merges_whole gathers.merges physical.faithful
  have absent := (List.nodup_cons.1 (found.distinct physical.well_formed)).1
  have absentLive : slot ∉ live := fun member => absent (matters.subset member)
  apply prunes_only_zeros_of_whole mergedFaithful normalized gathers.found
    (gathers.members slot List.mem_cons_self)
    (fun control member => gathers.members control (List.mem_cons_of_mem _ member))
    below absentLive
  rcases spares with noMatrix | large
  · exact Or.inl noMatrix
  · refine Or.inr fun index => ?_
    rw [whole, Matrix2.act_eq_of_controls gate.matrix absentLive absent
      fun other different => all_ones_of_live physical.faithful matters different]
    exact large index

end Exact

variable [ExactAngles R] {before : Simulator R} (physical : before.Physical)

include physical

/-- A gate acts on the product as its matrix. -/
theorem gate {gate : Gate R} {target : QubitId} {controls : List QubitId} {slot : Nat}
    {controlSlots : List Nat} (found : before.Operands (target :: controls) (slot :: controlSlots))
    (prunes : before.PrunesOnlyZeros gate slot controlSlots) :
    ∃ after, applyGate gate target controls before = .ok () after ∧ after.Physical ∧
      (∀ index, after.globalState.value index =
        gate.matrix.act slot controlSlots before.globalState.value index) ∧
      after = { before with arena := after.arena } := by
  have outcome := gate_outcome physical.well_formed gate target controls
  have kept := physical.performed (.gate gate target controls) trivial
  rw [Operation.perform] at kept
  generalize applyGate gate target controls before = result at outcome kept
  cases outcome with
  | refused refused =>
      rw [(slots_of_operands _ _ _).2 found] at refused
      cases refused
  | skipped operands decided =>
      cases found.unique operands
      exact ⟨before, rfl, physical,
        value_skipped physical.well_formed physical.faithful found decided, rfl⟩
  | @applied _ place _ live merged partition operands matters gathers =>
      cases found.unique operands
      have only := prunes live place merged partition matters gathers.result gathers.found
      have normalized := normalized_merges gathers.merges physical.faithful physical.normalized
      have below := physical.well_formed.allocated_lt_width (found.allocated List.mem_cons_self)
      have absent : slot ∉ live := fun member =>
        (List.nodup_cons.1 (found.distinct physical.well_formed)).1 (matters.subset member)
      have total : (partition.state.applyGate gate slot live).totalProbability = 1 := by
        rw [total_probability_eq_sum]
        simp only [value_apply_gate partition.state gate below absent only]
        rw [Matrix2.sum_act gate.unitary_matrix below absent, ← total_probability_eq_sum]
        exact normalized partition (mem_in_use_iff.2 ⟨place, gathers.used, gathers.found⟩)
      exact ⟨_, rfl, kept (normalized_with_state normalized total),
        value_applied physical.well_formed physical.faithful found matters gathers only, rfl⟩

end Physical

end Simulator

end SparseQuantum
