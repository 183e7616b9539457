import Mathlib
import SparseQuantum.Proofs.CallEndings
import SparseQuantum.Proofs.RenamedArenas

/-!
# Simulators with renamed slots

Two simulators match when they differ only in the names of their slots, in the places of partitions
and in the slots that are free. Each call tells both callers the same and leaves simulators that
match again, by the same renaming on all slots that were in use before; only a clean allocation has
to rename, the slot it takes.
-/

namespace SparseQuantum

set_option autoImplicit false

namespace Simulator

open Arena

variable {R : Type}

structure Matches (sigma : Equiv.Perm Nat) (left right : Simulator R) : Prop where
  rearranges : BasisState.Rearranges sigma
  arena : Renames sigma left.arena right.arena
  allocation : ∀ qubit : QubitId, right.allocation[qubit]? = left.allocation[qubit]?.map sigma
  parked : right.parkedSlots = left.parkedSlots.map sigma
  limit : right.maxQubits = left.maxQubits
  registers : right.registers = left.registers
  bits : right.bits = left.bits
  dumps : right.dumps = left.dumps
  draws : right.draws = left.draws

section Reading

variable {sigma : Equiv.Perm Nat} {left right : Simulator R} (matching : Matches sigma left right)

include matching

theorem Matches.regrouped {leftAfter rightAfter : Arena R}
    (renames : Renames sigma leftAfter rightAfter) :
    Matches sigma { left with arena := leftAfter } { right with arena := rightAfter } :=
  { matching with arena := renames }

theorem Matches.slots_of (seen qubits : List QubitId) :
    right.slotsOf seen qubits = (left.slotsOf seen qubits).map (List.map sigma) := by
  induction qubits generalizing seen with
  | nil => rfl
  | cons qubit rest induction =>
      rw [slotsOf, slotsOf, induction]
      split_ifs
      · rfl
      · rw [slotOf, slotOf, matching.allocation]
        cases left.allocation[qubit]? with
        | none => rfl
        | some slot =>
            rcases left.slotsOf (qubit :: seen) rest with _ | _ <;> rfl

theorem Matches.refused {qubits : List QubitId} {error : SimulatorError}
    (refused : left.slotsOf [] qubits = .error error) :
    right.slotsOf [] qubits = .error error := by
  rw [matching.slots_of, refused]
  rfl

theorem Matches.operands {qubits : List QubitId} {slots : List Nat}
    (found : left.Operands qubits slots) : right.Operands qubits (slots.map sigma) := by
  rw [← slots_of_operands, matching.slots_of, (slots_of_operands _ _ _).2 found]
  rfl

theorem Matches.live {controls live : List Nat} (matters : Live left controls live) :
    Live right (controls.map sigma) (live.map sigma) where
  undecided := by
    intro slot member
    obtain ⟨source, listed, same⟩ := List.mem_map.1 member
    rw [← same, matching.arena.known matching.rearranges]
    exact matters.undecided source listed
  kept := by
    rw [matters.kept, List.filter_map]
    simp only [Function.comp_def, matching.arena.known matching.rearranges]

theorem Matches.decided {controls : List Nat}
    (decided : ∃ slot ∈ controls, left.arena.known? slot = some false) :
    ∃ slot ∈ controls.map sigma, right.arena.known? slot = some false := by
  obtain ⟨slot, member, known⟩ := decided
  refine ⟨sigma slot, List.mem_map_of_mem member, ?_⟩
  rw [matching.arena.known matching.rearranges, known]

end Reading

/-! ### What a call tells -/

inductive Answer where
  | done
  | bit (value : Bool)
  /-- The index of the dump that was taken. -/
  | index (position : Nat)
  | stopped (stop : Stop)

def answerOf {α : Type} (tell : α → Answer) : EStateM.Result Stop (Simulator R) α → Answer
  | .ok value _ => tell value
  | .error stop _ => .stopped stop

structure InStep {α : Type} (sigma : Equiv.Perm Nat) (tell : α → Answer)
    (left right : EStateM.Result Stop (Simulator R) α) : Prop where
  answer : answerOf tell right = answerOf tell left
  matching : Matches sigma (leaves left) (leaves right)

theorem InStep.discarded {α : Type} {sigma : Equiv.Perm Nat} {tell : α → Answer}
    {action : Action R α} {left right : Simulator R}
    (told : InStep sigma tell (action left) (action right)) :
    Matches sigma (leaves ((discard action : Action R Unit) left))
      (leaves ((discard action : Action R Unit) right)) := by
  rw [Operation.leaves_discard, Operation.leaves_discard]
  exact told.matching

variable [Scalar R]

/-! ### Allocating and freeing -/

section Formed

variable {sigma : Equiv.Perm Nat} {left right : Simulator R} (matching : Matches sigma left right)
  (leftFormed : left.WellFormed) (rightFormed : right.WellFormed)

include matching leftFormed rightFormed

theorem Matches.owns_iff (slot : Nat) : right.arena.Owns (sigma slot) ↔ left.arena.Owns slot :=
  matching.arena.owns_iff leftFormed.arena rightFormed.arena slot

theorem Matches.offers_slot_iff (dirty : Bool) :
    right.OffersSlot dirty ↔ left.OffersSlot dirty := by
  have owned : {slot | right.arena.Owns slot} = sigma '' {slot | left.arena.Owns slot} := by
    ext slot
    constructor
    · intro owns
      refine ⟨sigma.symm slot, ?_, sigma.apply_symm_apply slot⟩
      change left.arena.Owns (sigma.symm slot)
      rw [← matching.owns_iff leftFormed rightFormed, sigma.apply_symm_apply]
      exact owns
    · rintro ⟨source, owns, rfl⟩
      exact (matching.owns_iff leftFormed rightFormed source).2 owns
  have room := owned_lt_iff rightFormed
  rw [owned, Set.ncard_image_of_injective _ sigma.injective, matching.limit,
    owned_lt_iff leftFormed] at room
  rw [OffersSlot, OffersSlot, matching.limit, ← room, matching.parked, ne_eq, List.map_eq_nil_iff]

omit [Scalar R] leftFormed rightFormed in
theorem Matches.unknown {qubit : QubitId} (unknown : left.allocation[qubit]? = none) :
    right.allocation[qubit]? = none := by
  rw [matching.allocation, unknown]
  rfl

omit [Scalar R] leftFormed rightFormed in
theorem Matches.found {qubit : QubitId} {slot : Nat} (found : left.allocation[qubit]? = some slot) :
    right.allocation[qubit]? = some (sigma slot) := by
  rw [matching.allocation, found]
  rfl

omit [Scalar R] leftFormed rightFormed in
theorem Matches.insert (qubit : QubitId) (slot : Nat) (other : QubitId) :
    (right.allocation.insert qubit (sigma slot))[other]? =
      (left.allocation.insert qubit slot)[other]?.map sigma := by
  rw [get_insert, get_insert, matching.allocation]
  split_ifs <;> rfl

omit [Scalar R] leftFormed rightFormed in
theorem Matches.erase (qubit other : QubitId) :
    (right.allocation.erase qubit)[other]? = (left.allocation.erase qubit)[other]?.map sigma := by
  rw [get_erase, get_erase, matching.allocation]
  split_ifs <;> rfl

end Formed

section Steps

variable {sigma : Equiv.Perm Nat} {left right : Simulator R} (matching : Matches sigma left right)
  (leftFormed : left.WellFormed) (rightFormed : right.WellFormed) (isLocal : left.arena.Local)

include matching leftFormed rightFormed isLocal

theorem Matches.congr {tau : Equiv.Perm Nat} (rearranges : BasisState.Rearranges tau)
    (same : ∀ slot, left.arena.Owns slot → tau slot = sigma slot) : Matches tau left right :=
  { matching with
    rearranges := rearranges
    arena := matching.arena.congr leftFormed.arena rightFormed.arena matching.rearranges isLocal
      rearranges same
    allocation := by
      intro qubit
      rw [matching.allocation]
      cases found : left.allocation[qubit]? with
      | none => rfl
      | some slot =>
          rw [Option.map_some, Option.map_some,
            same slot (leftFormed.owned_of_allocated ⟨qubit, found⟩)]
    parked := by
      rw [matching.parked]
      apply List.map_congr_left
      exact fun slot member =>
        (same slot ((leftFormed.owns_iff slot).2 (Or.inr member))).symm }

/-- Slots that nothing owns can be made to correspond. -/
theorem Matches.fresh {slot slotRight : Nat} (inside : slot < width)
    (insideRight : slotRight < width) (unowned : ¬left.arena.Owns slot)
    (unownedRight : ¬right.arena.Owns slotRight) :
    ∃ tau : Equiv.Perm Nat, Matches tau left right ∧ tau slot = slotRight ∧
      ∀ other, left.arena.Owns other → tau other = sigma other := by
  have agrees : ∀ other, left.arena.Owns other →
      sigma.trans (Equiv.swap (sigma slot) slotRight) other = sigma other := by
    intro other owned
    apply Equiv.swap_apply_of_ne_of_ne
    · intro same
      rw [sigma.injective same] at owned
      exact unowned owned
    · intro same
      rw [← matching.owns_iff leftFormed rightFormed, same] at owned
      exact unownedRight owned
  have rearranges : BasisState.Rearranges (sigma.trans (Equiv.swap (sigma slot) slotRight)) :=
    BasisState.rearranges_trans matching.rearranges (BasisState.rearranges_swap
      (BasisState.lt_width_of_rearranges matching.rearranges inside) insideRight)
  exact ⟨_, matching.congr leftFormed rightFormed isLocal rearranges agrees,
    Equiv.swap_apply_left _ _, agrees⟩

/-- The slots taken on both sides are made to correspond; nothing else is renamed anew. -/
theorem alloc_in_step (qubit : QubitId) (dirty : Bool) :
    ∃ tau : Equiv.Perm Nat,
      InStep tau (fun _ => .done) (alloc qubit dirty left) (alloc qubit dirty right) ∧
      ∀ slot, left.arena.Owns slot → tau slot = sigma slot := by
  cases found : left.allocation[qubit]? with
  | some slot =>
      rw [alloc_known found, alloc_known (matching.found found)]
      exact ⟨sigma, ⟨rfl, matching⟩, fun _ _ => rfl⟩
  | none =>
      have unknown := matching.unknown found
      by_cases parked : dirty = true ∧ left.parkedSlots ≠ []
      · obtain ⟨isDirty, some⟩ := parked
        obtain ⟨slot, rest, parked⟩ := List.exists_cons_of_ne_nil some
        have parkedRight := matching.parked
        rw [parked, List.map_cons] at parkedRight
        rw [isDirty, alloc_unparked found parked, alloc_unparked unknown parkedRight]
        refine ⟨sigma, ⟨rfl, { matching with
          allocation := matching.insert qubit slot
          parked := rfl }⟩, fun _ _ => rfl⟩
      · have unparked : dirty = true → left.parkedSlots = [] := fun isDirty => by
          by_contra some
          exact parked ⟨isDirty, some⟩
        have unparkedRight : dirty = true → right.parkedSlots = [] := fun isDirty => by
          rw [matching.parked, unparked isDirty, List.map_nil]
        by_cases offers : left.OffersSlot dirty
        · have offersRight := (matching.offers_slot_iff leftFormed rightFormed dirty).2 offers
          obtain ⟨slot, _, _, _, grown, inside, unowned, inserts, formed, answer⟩ :=
            alloc_fresh leftFormed found unparked offers
          obtain ⟨slotRight, _, _, _, grownRight, insideRight, unownedRight, insertsRight,
            formedRight, answerRight⟩ := alloc_fresh rightFormed unknown unparkedRight offersRight
          obtain ⟨tau, renamed, taken, agrees⟩ :=
            matching.fresh leftFormed rightFormed isLocal inside insideRight unowned unownedRight
          rw [← taken] at insertsRight answerRight
          rw [answer, answerRight]
          refine ⟨tau, ⟨rfl, { renamed with
            arena := renamed.arena.inserts leftFormed.arena rightFormed.arena renamed.rearranges
              formed formedRight inserts insertsRight
            allocation := renamed.insert qubit slot }⟩, agrees⟩
        · have offersRight := (matching.offers_slot_iff leftFormed rightFormed dirty).not.2 offers
          rw [alloc_without_slot found offers, alloc_without_slot unknown offersRight,
            matching.limit]
          exact ⟨sigma, ⟨rfl, matching⟩, fun _ _ => rfl⟩

end Steps

section Exact

variable {K : Type} [ExactScalar K] {sigma : Equiv.Perm Nat} {left right : Simulator K}
  (matching : Matches sigma left right) (leftFormed : left.WellFormed)
  (rightFormed : right.WellFormed)

include matching leftFormed rightFormed

theorem free_in_step (qubit : QubitId) (dirty : Bool) :
    InStep sigma (fun _ => .done) (free qubit dirty left) (free qubit dirty right) := by
  cases found : left.allocation[qubit]? with
  | none =>
      have unknown := matching.unknown found
      rw [free_unknown found, free_unknown unknown]
      exact ⟨rfl, matching⟩
  | some slot =>
      have foundRight := matching.found found
      cases dirty with
      | true =>
          rw [free_parked found, free_parked foundRight]
          exact ⟨rfl, { matching with
            allocation := matching.erase qubit
            parked := congrArg (sigma slot :: ·) matching.parked }⟩
      | false =>
          obtain ⟨place, partition, bit, draws, least, owner, stands, sampled, detaches, answer⟩ :=
            free_cleaned leftFormed.sound found
          obtain ⟨placeRight, renamed, bitRight, drawsRight, leastRight, ownerRight, standsRight,
            sampledRight, detachesRight, answerRight⟩ := free_cleaned rightFormed.sound foundRight
          have same := matching.arena.partition_eq owner stands ownerRight standsRight
          have used := leftFormed.arena.used_of_owner owner
          have usedRight := rightFormed.arena.used_of_owner ownerRight
          rw [same, Partition.state_rename] at sampledRight detachesRight
          rw [same] at standsRight
          rw [SparseState.sample_permute matching.rearranges, matching.draws, sampled,
            Prod.mk.injEq] at sampledRight
          rw [← sampledRight.1, SparseState.permute_collapse matching.rearranges] at detachesRight
          have collapsed := matching.arena.with_state leftFormed.arena rightFormed.arena stands used
            standsRight usedRight (partition.state.collapse slot bit true)
          have renames := collapsed.detaches
            (with_state_well_formed leftFormed.arena used _)
            (with_state_well_formed rightFormed.arena usedRight _) detaches detachesRight
          rw [answer, answerRight]
          exact ⟨rfl, { matching with
            arena := renames
            allocation := matching.erase qubit
            draws := sampledRight.2.symm }⟩

theorem measure_in_step (qubit : QubitId) :
    InStep sigma .bit (measure qubit left) (measure qubit right) := by
  cases found : left.allocation[qubit]? with
  | none =>
      rw [measure_unknown found, measure_unknown (matching.unknown found)]
      exact ⟨rfl, matching⟩
  | some slot =>
      obtain ⟨place, partition, bit, draws, owner, stands, sampled, answer⟩ :=
        measure_found leftFormed.sound found
      obtain ⟨placeRight, renamed, bitRight, drawsRight, ownerRight, standsRight, sampledRight,
        answerRight⟩ := measure_found rightFormed.sound (matching.found found)
      have same := matching.arena.partition_eq owner stands ownerRight standsRight
      rw [same] at standsRight
      rw [same, Partition.state_rename] at sampledRight answerRight
      rw [SparseState.sample_permute matching.rearranges, matching.draws, sampled,
        Prod.mk.injEq] at sampledRight
      rw [← sampledRight.1, ← sampledRight.2, SparseState.permute_collapse matching.rearranges]
        at answerRight
      rw [answer, answerRight]
      refine ⟨rfl, { matching with
        arena := ?_
        draws := rfl
        bits := congrArg (·.insert qubit bit) matching.bits }⟩
      exact matching.arena.with_state leftFormed.arena rightFormed.arena stands
        (leftFormed.arena.used_of_owner owner) standsRight
        (rightFormed.arena.used_of_owner ownerRight) _

theorem Matches.gathers (isLocal : left.arena.Local) {first place : Nat} {others : List Nat}
    {merged : Arena K} {partition : Partition K}
    (gathers : Gathers left.arena merged first others place partition)
    (allocated : ∀ slot ∈ first :: others, left.Allocated slot) :
    ∃ (other : Nat) (renamed : Arena K), Renames sigma merged renamed ∧
      Gathers right.arena renamed (sigma first) (others.map sigma) other
        (partition.rename sigma) := by
  have allocatedRight : ∀ slot ∈ sigma first :: others.map sigma, right.Allocated slot := by
    intro slot member
    rw [← List.map_cons] at member
    obtain ⟨source, listed, same⟩ := List.mem_map.1 member
    obtain ⟨qubit, found⟩ := allocated source listed
    exact ⟨qubit, by rw [matching.found found, same]⟩
  obtain ⟨other, renamed, partitionRight, gathersRight⟩ :=
    gather_allocated rightFormed (sigma first) (others.map sigma) allocatedRight
  obtain ⟨renames, same⟩ := matching.arena.gathers matching.rearranges leftFormed.arena
    rightFormed.arena isLocal gathers gathersRight
  rw [same] at gathersRight
  exact ⟨other, renamed, renames, gathersRight⟩

section Local

variable (isLocal : left.arena.Local)

include isLocal

theorem gate_in_step (gate : Gate K) (target : QubitId) (controls : List QubitId) :
    InStep sigma (fun _ => .done) (applyGate gate target controls left)
      (applyGate gate target controls right) := by
  have outcome := gate_outcome leftFormed gate target controls
  generalize applyGate gate target controls left = result at outcome ⊢
  cases outcome with
  | refused refused =>
      rw [apply_gate_refused (matching.refused refused)]
      exact ⟨rfl, matching⟩
  | skipped found decided =>
      rw [apply_gate_skipped rightFormed gate (matching.operands found) (matching.decided decided)]
      exact ⟨rfl, matching⟩
  | @applied slot place controlSlots live merged partition found matters gathers =>
      have together : left.Operands (target :: controls) ([slot] ++ controlSlots) := found
      have allocated : ∀ other ∈ slot :: live, left.Allocated other :=
        fun other member => together.live_allocated matters member
      have inside : slot < width :=
        leftFormed.allocated_lt_width (allocated slot List.mem_cons_self)
      have absent : slot ∉ live :=
        (List.nodup_cons.1 (together.live_distinct matters leftFormed)).1
      obtain ⟨other, renamed, renames, gathersRight⟩ :=
        matching.gathers leftFormed rightFormed isLocal gathers allocated
      rw [apply_gate_eq rightFormed gate (matching.operands found) (matching.live matters)
        gathersRight, Partition.state_rename,
        SparseState.permute_apply_gate matching.rearranges partition.state gate inside absent]
      exact ⟨rfl, matching.regrouped (renames.with_state gathers.well_formed
        gathersRight.well_formed gathers.found gathers.used gathersRight.found
        gathersRight.used _)⟩

theorem dump_in_step [Std.TransCmp (Scalar.totalOrder : K → K → Ordering)]
    [Std.LawfulEqCmp (Scalar.totalOrder : K → K → Ordering)] (qubits : List QubitId) :
    InStep sigma .index (takeDump qubits left) (takeDump qubits right) := by
  have outcome := dump_outcome leftFormed qubits
  generalize takeDump qubits left = result at outcome ⊢
  cases outcome with
  | refused refused =>
      rw [takeDump, Action.bind_of_error (operands_of_refused (matching.refused refused))]
      exact ⟨rfl, matching⟩
  | empty noQubits =>
      have answer : takeDump qubits right = .ok right.dumps.size { right with
          dumps := right.dumps.push (SparseState.ground.dump 0) } := by
        rw [noQubits]
        rfl
      rw [answer, matching.dumps]
      exact ⟨rfl, { matching with dumps := rfl }⟩
  | @recorded first place rest merged partition found gathers =>
      have distinct := found.distinct leftFormed
      have inside : ∀ slot ∈ first :: rest, slot < width :=
        fun slot member => leftFormed.allocated_lt_width (found.allocated member)
      obtain ⟨other, renamed, renames, gathersRight⟩ :=
        matching.gathers leftFormed rightFormed isLocal gathers fun slot member =>
          found.allocated member
      have record := SparseState.dump_permute matching.rearranges partition.state distinct inside
      rw [take_dump_eq rightFormed.sound (matching.operands found) gathersRight, matching.dumps]
      exact ⟨rfl, { matching with
        arena := renames
        dumps := congrArg left.dumps.push record }⟩

theorem run_in_step {targets controls : List QubitId} {first place : Nat}
    {rest controlSlots live : List Nat} {merged : Arena K} {partition : Partition K}
    (found : left.Operands (targets ++ controls) (first :: rest ++ controlSlots))
    (count : (first :: rest).length = targets.length) (matters : Live left controlSlots live)
    (gathers : Gathers left.arena merged first (rest ++ live) place partition)
    (arguments : String) (inverse : Bool) :
    InStep sigma (fun _ => .done)
      (applyPlugin AddConstant.plugin targets arguments inverse controls left)
      (applyPlugin AddConstant.plugin targets arguments inverse controls right) := by
  have foundRight := matching.operands found
  rw [List.map_append, List.map_cons] at foundRight
  have countRight : (sigma first :: rest.map sigma).length = targets.length := by
    rw [← count, List.length_cons, List.length_cons, List.length_map]
  have mattersRight := matching.live matters
  obtain ⟨other, renamed, renames, gathersRight⟩ :=
    matching.gathers leftFormed rightFormed isLocal gathers fun _ member =>
      found.live_allocated matters member
  rw [List.map_append] at gathersRight
  rcases @AddConstant.gives_up_or_reads K _ targets.length arguments with
    ⟨reason, givesUp⟩ | ⟨fits, constant, reads⟩
  · rw [add_gives_up leftFormed found count matters gathers givesUp,
      add_gives_up rightFormed foundRight countRight mattersRight gathersRight givesUp]
    exact ⟨rfl, matching.regrouped renames⟩
  · have zeroAdd : ∀ amplitude : Amplitude K, Amplitude.zero.add amplitude = amplitude := zero_add
    obtain ⟨call, added, answer, moves⟩ := add_succeeds zeroAdd leftFormed.sound found count fits
      matters gathers reads inverse
    obtain ⟨callRight, addedRight, answerRight, movesRight⟩ := add_succeeds zeroAdd
      rightFormed.sound foundRight countRight fits mattersRight gathersRight reads inverse
    have distinct : (first :: rest ++ live).Nodup := found.live_distinct matters leftFormed
    have inside : ∀ slot ∈ first :: rest, slot < width := fun slot member =>
      found.live_lt_width matters leftFormed slot (List.mem_append_left live member)
    have same : addedRight = added.permute sigma := SparseState.permute_of_added
      matching.rearranges distinct.of_append_left inside (List.disjoint_of_nodup_append distinct)
      moves movesRight
    rw [answer, answerRight, same]
    exact ⟨rfl, matching.regrouped (renames.with_state gathers.well_formed
      gathersRight.well_formed gathers.found gathers.used gathersRight.found gathersRight.used _)⟩

theorem add_in_step (targets : List QubitId) (arguments : String) (inverse : Bool)
    (controls : List QubitId) :
    InStep sigma (fun _ => .done)
      (applyPlugin AddConstant.plugin targets arguments inverse controls left)
      (applyPlugin AddConstant.plugin targets arguments inverse controls right) := by
  cases read : left.slotsOf [] (targets ++ controls) with
  | error error =>
      rw [apply_plugin_refused read, apply_plugin_refused (matching.refused read)]
      exact ⟨rfl, matching⟩
  | ok slots =>
      have listed := (slots_of_operands left _ _).1 read
      generalize answer : applyPlugin AddConstant.plugin targets arguments inverse controls left =
        result
      have outcome := plugin_outcome leftFormed AddConstant.plugin targets arguments inverse
        controls
      rw [answer] at outcome
      cases outcome with
      | refused refused => cases read.symm.trans refused
      | skipped found count decided =>
          have foundRight := matching.operands found
          rw [List.map_append] at foundRight
          rw [apply_plugin_skipped rightFormed.sound foundRight
            (by rw [List.length_map, count]) (matching.decided decided)]
          exact ⟨rfl, matching⟩
      | idle noTargets =>
          rw [noTargets, List.nil_append] at listed
          rw [noTargets,
            apply_plugin_idle rightFormed _ arguments inverse (matching.operands listed)]
          exact ⟨rfl, matching⟩
      | ran found count matters gathers =>
          rw [← answer]
          exact run_in_step matching leftFormed rightFormed isLocal found count matters gathers
            arguments inverse

end Local

end Exact

end Simulator

end SparseQuantum
