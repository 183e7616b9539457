import Mathlib
import SparseQuantum.Proofs.ArenaNumbering
import SparseQuantum.Proofs.CallEndings
import SparseQuantum.Proofs.PartitionIndex

/-!
# Parked slots wait their turn

The parked slots are a stack: a dirty free puts a slot on it, a dirty allocation takes the last one
off, and no other operation touches it. So a slot stays parked for as long as the stack is as high
as it was with the slot on top. All that time the slot has a partition, wherever merges take it, and
no clean allocation hands it out; a dirty one does as soon as the slot is on top again.
-/

namespace SparseQuantum

set_option autoImplicit false

variable {R : Type} [Scalar R]

namespace Simulator

open Arena

/-- What an operation does to the parked slots. -/
inductive Parks : Operation R → List Nat → List Nat → Prop where
  | kept (operation : Operation R) (parked : List Nat) : Parks operation parked parked
  | pushed (qubit : QubitId) (slot : Nat) (parked : List Nat) :
      Parks (.free qubit true) parked (slot :: parked)
  | popped (qubit : QubitId) (slot : Nat) (parked : List Nat) :
      Parks (.alloc qubit true) (slot :: parked) parked

theorem perform_parks_formed {before : Simulator R} (wellFormed : before.WellFormed)
    (operation : Operation R) :
    Parks operation before.parkedSlots (leaves (operation.perform before)).parkedSlots := by
  cases operation with
  | alloc qubit dirty =>
      have outcome := alloc_outcome wellFormed qubit dirty
      rw [Operation.perform]
      generalize alloc qubit dirty before = result at outcome ⊢
      cases outcome with
      | unparked _ isDirty parked =>
          rw [isDirty, parked]
          exact .popped qubit _ _
      | _ => exact .kept _ _
  | free qubit dirty =>
      have outcome := free_outcome wellFormed qubit dirty
      rw [Operation.perform]
      generalize free qubit dirty before = result at outcome ⊢
      cases outcome with
      | parked _ isDirty =>
          rw [isDirty]
          exact .pushed qubit _ _
      | _ => exact .kept _ _
  | gate kind target controls =>
      have outcome := gate_outcome wellFormed kind target controls
      rw [Operation.perform]
      generalize applyGate kind target controls before = result at outcome ⊢
      cases outcome with
      | _ => exact .kept _ _
  | measure qubit =>
      have outcome := measure_outcome wellFormed qubit
      rw [Operation.perform, Operation.leaves_discard]
      generalize measure qubit before = result at outcome ⊢
      cases outcome with
      | _ => exact .kept _ _
  | plugin code targets arguments inverse controls =>
      have outcome := plugin_outcome wellFormed code targets arguments inverse controls
      rw [Operation.perform, Operation.leaves_discard]
      generalize applyPlugin code targets arguments inverse controls before = result at outcome ⊢
      cases outcome with
      | @ran _ _ _ _ _ _ _ _ call =>
          rcases code.run call with ⟨left, stop | ⟨⟩⟩
          · exact .kept _ _
          · exact .kept _ _
      | _ => exact .kept _ _
  | dump qubits =>
      have outcome := dump_outcome wellFormed qubits
      rw [Operation.perform, Operation.leaves_discard]
      generalize takeDump qubits before = result at outcome ⊢
      cases outcome with
      | _ => exact .kept _ _
  | setRegister register value => exact .kept _ _

theorem perform_parks {before : Simulator R} (sound : before.Sound) (operation : Operation R) :
    Parks operation before.parkedSlots (leaves (operation.perform before)).parkedSlots := by
  rcases perform_unlimited sound.limit_le operation with unchanged | ⟨same, _⟩
  · rw [unchanged]
    exact .kept _ _
  · have parks := perform_parks_formed sound.unlimited operation
    rw [same, leaves_result_under] at parks
    exact parks

omit [Scalar R] in
theorem Parks.eq_of_clean_alloc {qubit : QubitId} {before after : List Nat}
    (parks : Parks (.alloc qubit false : Operation R) before after) : after = before := by
  cases parks
  rfl

omit [Scalar R] in
/-- What is at the bottom stays there unless the stack becomes lower. -/
theorem Parks.bottom {operation : Operation R} {before after bottom : List Nat}
    (parks : Parks operation before after) (below : bottom <:+ before)
    (enough : bottom.length ≤ after.length) : bottom <:+ after := by
  cases parks with
  | kept => exact below
  | pushed => exact below.trans (List.suffix_cons _ _)
  | popped =>
      -- The slot that goes lies above the bottom, since the rest is high enough to hold it.
      rcases List.suffix_cons_iff.1 below with whole | below
      · rw [whole, List.length_cons] at enough
        exact absurd enough (Nat.not_succ_le_self _)
      · exact below

/-! ### Runs -/

/-- Operations and changes of the limit, after each of which at least so many slots are parked. -/
inductive RunsOver (least : Nat) (start : Simulator R) : Simulator R → Prop where
  | idle : RunsOver least start start
  | limited {before : Simulator R} (run : RunsOver least start before) (maxQubits : Nat) :
      RunsOver least start (before.withMaxQubits maxQubits)
  | performed {before : Simulator R} (run : RunsOver least start before) (operation : Operation R)
      (enough : least ≤ (leaves (operation.perform before)).parkedSlots.length) :
      RunsOver least start (leaves (operation.perform before))

/-- The slots that are parked at the start stay so, in their order, below those parked later. -/
theorem run_keeps_parked {start later : Simulator R} (sound : start.Sound)
    (run : RunsOver start.parkedSlots.length start later) :
    later.Sound ∧ start.parkedSlots <:+ later.parkedSlots := by
  induction run with
  | idle => exact ⟨sound, List.suffix_refl _⟩
  | limited _ maxQubits ih => exact ⟨sound_with_max_qubits ih.1 maxQubits, ih.2⟩
  | performed _ operation enough ih =>
      exact ⟨sound_perform ih.1 operation, (perform_parks ih.1 operation).bottom ih.2 enough⟩

section Parked

variable {simulator : Simulator R} (sound : simulator.Sound) {slot : Nat}
  (parked : slot ∈ simulator.parkedSlots)

include sound parked

theorem parked_partition :
    ∃ place partition, simulator.arena.owner? slot = some place ∧
      simulator.arena.partitions[place]? = some partition ∧ slot ∈ partition.members ∧
      place ∉ simulator.arena.vacant ∧
      ∀ other partition, simulator.arena.partitions[other]? = some partition →
        slot ∈ partition.members → other = place := by
  have wellFormed : simulator.arena.WellFormed := sound.unlimited.arena
  obtain ⟨place, owner⟩ := (sound.unlimited.owns_iff slot).2 (Or.inr parked)
  obtain ⟨partition, stands, member, used⟩ := wellFormed.partition_of_owner owner
  refine ⟨place, partition, owner, stands, member, used, fun other held found here => ?_⟩
  exact Option.some.inj ((wellFormed.owner_of_member found here).symm.trans owner)

/-- A clean allocation hands out no parked slot. -/
theorem clean_alloc_avoids_parked {qubit : QubitId} {after : Simulator R}
    (answer : alloc qubit false simulator = .ok () after) :
    after.allocation[qubit]? ≠ some slot := by
  have afterSound := sound_perform sound (.alloc qubit false)
  have kept := (perform_parks sound (.alloc qubit false)).eq_of_clean_alloc
  rw [Operation.perform, answer] at afterSound kept
  intro taken
  rw [← kept] at parked
  exact afterSound.unlimited.parked_unallocated slot parked ⟨qubit, taken⟩

end Parked

/-- A dirty allocation hands out the last parked slot with the partition that owns it. -/
theorem dirty_alloc_hands_out {simulator : Simulator R} {slot : Nat} {rest : List Nat}
    (top : simulator.parkedSlots = slot :: rest) {qubit : QubitId}
    (unknown : simulator.allocation[qubit]? = none) {place : Nat} {partition : Partition R}
    (owner : simulator.arena.owner? slot = some place)
    (stands : simulator.arena.partitions[place]? = some partition) :
    ∃ after, alloc qubit true simulator = .ok () after ∧ after.allocation[qubit]? = some slot ∧
      after.partitionOf qubit = .ok partition := by
  have found := (get_insert simulator.allocation qubit slot qubit).trans (if_pos rfl)
  exact ⟨_, alloc_unparked unknown top, found, partition_of_owned found owner stands⟩

/-- A parked slot has one partition in use and no clean allocation hands it out. While as many slots
are parked as `level`, a dirty allocation needs no other slot and hands it out with the partition
that it has by then. -/
structure Waits (simulator : Simulator R) (slot level : Nat) : Prop where
  parked : slot ∈ simulator.parkedSlots
  one_partition : ∃! place, place ∉ simulator.arena.vacant ∧ ∃ partition,
    simulator.arena.partitions[place]? = some partition ∧ slot ∈ partition.members
  clean_avoids : ∀ next after, alloc next false simulator = .ok () after →
    after.allocation[next]? ≠ some slot
  dirty_hands_out : simulator.parkedSlots.length = level →
    ∀ next, simulator.allocation[next]? = none → ∃ after place partition,
      alloc next true simulator = .ok () after ∧ after.allocation[next]? = some slot ∧
      simulator.arena.owner? slot = some place ∧
      simulator.arena.partitions[place]? = some partition ∧ slot ∈ partition.members ∧
      after.partitionOf next = .ok partition

/-- The qubit is forgotten and its slot parked: it waits as long as no fewer slots are parked than
right then, and a dirty allocation at once brings back the partition that the qubit had. -/
structure Parked (before freed : Simulator R) (qubit : QubitId) (slot : Nat) : Prop where
  waits : ∀ later, RunsOver freed.parkedSlots.length freed later →
    later.Waits slot freed.parkedSlots.length
  forgotten : freed.allocation[qubit]? = none
  at_once : ∀ next, freed.allocation[next]? = none → ∃ after partition,
    alloc next true freed = .ok () after ∧ after.allocation[next]? = some slot ∧
      before.partitionOf qubit = .ok partition ∧ after.partitionOf next = .ok partition

/-- A slot that is freed with its state stays parked until it is needed. -/
theorem parked_slot_waits {simulator : Simulator R} (arises : simulator.Arises) {qubit : QubitId}
    {slot : Nat} (found : simulator.allocation[qubit]? = some slot) :
    ∃ freed, free qubit true simulator = .ok () freed ∧ Parked simulator freed qubit slot := by
  have sound := arises_sound arises
  have freedSound := sound_perform sound (.free qubit true)
  rw [Operation.perform, free_parked found] at freedSound
  refine ⟨_, free_parked found, ?_⟩
  exact {
    waits := fun later run => by
      obtain ⟨laterSound, bottom⟩ := run_keeps_parked freedSound run
      have parked : slot ∈ later.parkedSlots := bottom.subset List.mem_cons_self
      obtain ⟨place, partition, owner, stands, member, used, only⟩ :=
        parked_partition laterSound parked
      refine ⟨parked, ⟨place, ⟨used, partition, stands, member⟩, ?_⟩,
        fun next after answer => clean_alloc_avoids_parked laterSound parked answer,
        fun level next unknown => ?_⟩
      · rintro other ⟨_, held, standsThere, here⟩
        exact only other held standsThere here
      · obtain ⟨after, answer, foundThere, same⟩ :=
          dirty_alloc_hands_out (bottom.eq_of_length level.symm).symm unknown owner stands
        exact ⟨after, place, partition, answer, foundThere, owner, stands, member, same⟩
    forgotten := (get_erase simulator.allocation qubit qubit).trans (if_pos rfl)
    at_once := fun next unknown => by
      obtain ⟨place, partition, owner, stands, _, before⟩ := partition_of_allocated sound found
      obtain ⟨after, answer, foundThere, same⟩ := dirty_alloc_hands_out rfl unknown owner stands
      exact ⟨after, partition, answer, foundThere, before, same⟩ }

def afterDetour (start : Simulator Float) : Simulator Float :=
  leaves ((Operation.alloc ⟨3⟩ true).perform
    (leaves ((Operation.alloc ⟨2⟩ false).perform
      (leaves ((Operation.free ⟨1⟩ true).perform start)))))

theorem joined_pair_parked :
    ∃ freed, free ⟨0⟩ true joinedPair = .ok () freed ∧ 0 ∈ (afterDetour freed).parkedSlots ∧
      ∃ after partition, alloc ⟨4⟩ true (afterDetour freed) = .ok () after ∧
        after.allocation[(⟨4⟩ : QubitId)]? = some 0 ∧ after.partitionOf ⟨4⟩ = .ok partition ∧
        0 ∈ partition.members := by
  have allocated : joinedPair.allocation[(⟨0⟩ : QubitId)]? = some 0 := by decide +kernel
  obtain ⟨freed, frees, isParked⟩ := parked_slot_waits joined_pair_arises allocated
  have same : freed = leaves (free ⟨0⟩ true joinedPair) := by
    rw [frees]
    rfl
  have run : RunsOver freed.parkedSlots.length freed (afterDetour freed) := by
    rw [same]
    exact ((RunsOver.idle.performed (.free ⟨1⟩ true) (by decide +kernel)).performed
      (.alloc ⟨2⟩ false) (by decide +kernel)).performed (.alloc ⟨3⟩ true) (by decide +kernel)
  have waits := isParked.waits (afterDetour freed) run
  have level : (afterDetour freed).parkedSlots.length = freed.parkedSlots.length := by
    rw [same]
    decide +kernel
  have unknown : (afterDetour freed).allocation[(⟨4⟩ : QubitId)]? = none := by
    rw [same]
    decide +kernel
  obtain ⟨after, _, partition, answer, found, _, _, member, sees⟩ :=
    waits.dirty_hands_out level ⟨4⟩ unknown
  exact ⟨freed, frees, waits.parked, after, partition, answer, found, sees, member⟩

end Simulator

end SparseQuantum
