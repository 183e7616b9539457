import Mathlib
import SparseQuantum.Proofs.ArenaNumbering
import SparseQuantum.Proofs.CallEndings
import SparseQuantum.Proofs.LocalMeasurement
import SparseQuantum.Proofs.PartitionIndex

/-!
# Freeing clean is measuring, resetting and forgetting

A clean free draws and collapses as a measurement of the qubit does, and then clears the slot in
what is left; so its state is that of the measurement with one position cleared. No bit is kept, the
slot leaves its partition, and the next clean allocation hands it out as a partition of its own.
-/

namespace SparseQuantum

set_option autoImplicit false

variable {R : Type}

namespace BasisState

theorem set_false_of_is_one {index : BasisState} {position : Nat}
    (one : index.isOne position = true) : index.set position false = index.flip position := by
  apply ext_is_one
  intro other inside
  rw [is_one_set, is_one_flip]
  by_cases here : position = other
  · rw [← here] at inside ⊢
    simp [one, inside]
  · simp [here]

theorem set_false_of_is_zero {index : BasisState} {position : Nat}
    (zero : index.isOne position = false) : index.set position false = index := by
  apply ext_is_one
  intro other inside
  rw [is_one_set]
  by_cases here : position = other
  · rw [← here] at inside ⊢
    rw [if_pos ⟨rfl, inside⟩, zero]
  · rw [if_neg fun both => here both.1]

end BasisState

variable [Scalar R]

namespace SparseState

/-- A reset leaves what a measurement with the same outcome leaves, with the position cleared: the
branch is the same, and so is the number that scales it. -/
theorem reset_entries_perm (state : SparseState R) (position : Nat) (outcome : Bool) :
    (state.collapse position outcome true).entries.Perm
      ((state.collapse position outcome false).entries.map fun entry =>
        (entry.1.set position false, entry.2)) := by
  have reset := Amplitudes.entries_perm (distinct_collapse state position outcome true)
  have kept := Amplitudes.entries_perm (distinct_collapse state position outcome false)
  refine reset.trans ?_
  refine List.Perm.trans (List.Perm.of_eq ?_) (kept.map _).symm
  rw [List.map_map]
  apply List.map_congr_left
  intro entry member
  have bit : entry.1.isOne position = outcome := beq_iff_eq.1 (List.mem_filter.1 member).2
  cases outcome with
  | false => simp [BasisState.set_false_of_is_zero bit]
  | true => simp [BasisState.set_false_of_is_one bit]

theorem ground_entries : (ground : SparseState R).entries = [(.zero, .one)] := by
  have perm : (ground : SparseState R).entries.Perm [(.zero, .one)] :=
    Amplitudes.entries_perm (List.pairwise_singleton _ _)
  exact List.perm_singleton.1 perm

end SparseState

namespace Simulator

open Arena

section Sound

variable {simulator : Simulator R} (sound : simulator.Sound) {qubit : QubitId} {slot : Nat}

include sound

theorem measured_and_freed (found : simulator.allocation[qubit]? = some slot) :
    ∃ (place : Nat) (partition : Partition R) (bit : Bool) (draws : Draws) (left : Arena R),
      simulator.arena.owner? slot = some place ∧
      simulator.arena.partitions[place]? = some partition ∧
      Detaches (simulator.arena.withState place (partition.state.collapse slot bit true)) left slot
        place { partition with state := partition.state.collapse slot bit true } ∧
      measure qubit simulator = .ok bit { simulator with
        arena := simulator.arena.withState place (partition.state.collapse slot bit false)
        draws := draws
        bits := simulator.bits.insert qubit bit } ∧
      free qubit false simulator = .ok () { simulator with
        allocation := simulator.allocation.erase qubit
        arena := left
        draws := draws
        freeSlots := slot :: simulator.freeSlots } := by
  obtain ⟨place, partition, bit, draws, left, owner, stands, sampled, detaches, freed⟩ :=
    free_cleaned sound found
  obtain ⟨placeHere, partitionHere, bitHere, drawsHere, ownerHere, standsHere, sampledHere,
    measured⟩ := measure_found sound found
  cases owner.symm.trans ownerHere
  cases stands.symm.trans standsHere
  cases sampled.symm.trans sampledHere
  exact ⟨place, partition, bit, draws, left, owner, stands, detaches, measured, freed⟩

/-- What was freed last is handed out first, whatever the limit, and begins at 0 on its own. -/
theorem alloc_recycled {rest : List Nat} (free : simulator.freeSlots = slot :: rest)
    (unknown : simulator.allocation[qubit]? = none) :
    ∃ after single, alloc qubit false simulator = .ok () after ∧
      after.allocation[qubit]? = some slot ∧ after.partitionOf qubit = .ok single ∧
      single.members = [slot] ∧ single.state.entries = [(.zero, .one)] := by
  have some : simulator.freeSlots ≠ [] := by
    rw [free]
    exact List.cons_ne_nil slot rest
  have clean : false = true → simulator.parkedSlots = [] := fun isDirty => by cases isDirty
  obtain ⟨place, grown, inserts, _, answer⟩ :=
    alloc_taking sound unknown clean (Or.inr (Or.inl some)) (.recycled free)
  have found := (get_insert simulator.allocation qubit slot qubit).trans (if_pos rfl)
  have owner := (inserts.owners slot).trans (if_pos rfl)
  have stands := (inserts.partitions place).trans (if_pos rfl)
  exact ⟨_, .singleton slot, answer, found, partition_of_owned found owner stands, rfl,
    SparseState.ground_entries⟩

end Sound

/-- With its only slot a partition goes. -/
theorem count_of_lone {arena left : Arena R} (wellFormed : arena.WellFormed)
    (leftFormed : left.WellFormed) {slot place : Nat} {partition : Partition R}
    (owner : arena.owner? slot = some place)
    (stands : arena.partitions[place]? = some partition) (lone : partition.members = [slot])
    (owners : ∀ other, left.owner? other = if other = slot then none else arena.owner? other) :
    ∃ count, arena.count = .ok (count + 1) ∧ left.count = .ok count := by
  have live : left.livePlaces = arena.livePlaces.erase place := by
    ext other
    rw [leftFormed.mem_live_places_iff, Finset.mem_erase, wellFormed.mem_live_places_iff]
    constructor
    · rintro ⟨held, ownerHere⟩
      rw [owners] at ownerHere
      split_ifs at ownerHere with here
      refine ⟨?_, held, ownerHere⟩
      rintro rfl
      have member := wellFormed.member_of_owner ownerHere stands
      rw [lone] at member
      exact here (List.mem_singleton.1 member)
    · rintro ⟨elsewhere, held, ownerHere⟩
      refine ⟨held, ?_⟩
      rw [owners, if_neg, ownerHere]
      rintro rfl
      exact elsewhere (Option.some.inj (ownerHere.symm.trans owner))
  have listed : place ∈ arena.livePlaces := (wellFormed.mem_live_places_iff place).2 ⟨slot, owner⟩
  refine ⟨left.livePlaces.card, ?_, leftFormed.count_eq_card⟩
  rw [wellFormed.count_eq_card, live, Finset.card_erase_add_one listed]

/-- What a clean free leaves, next to what measuring the qubit would have left: the draws where the
measurement leaves them, and the other slots of the partition with the collapsed state, the slot
cleared. A lone slot takes its partition with it. All other partitions and the rest of the simulator
stay as they are, except that the qubit is forgotten and the next clean allocation hands out its
slot, which is 0 and alone then. -/
structure Released (before measured freed : Simulator R) (qubit : QubitId) (slot place : Nat)
    (partition collapsed : Partition R) : Prop where
  owner : before.arena.owner? slot = some place
  stands : before.arena.partitions[place]? = some partition
  collapsed_stands : measured.arena.partitions[place]? = some collapsed
  draws_eq : freed.draws = measured.draws
  shared : ∀ other ∈ partition.members, other ≠ slot → ∃ kept,
    freed.arena.owner? other = some place ∧ freed.arena.partitions[place]? = some kept ∧
      kept.members = partition.members.filter (· ≠ slot) ∧
      kept.state.entries.Perm (collapsed.state.entries.map fun entry =>
        (entry.1.set slot false, entry.2))
  lone : partition.members = [slot] → place ∈ freed.arena.vacant ∧ ∃ count,
    before.partitionCount = .ok (count + 1) ∧ freed.partitionCount = .ok count
  untouched : Untouched before.arena freed.arena place
  disowned : freed.arena.owner? slot = none
  registers_eq : freed.registers = before.registers
  bits_eq : freed.bits = before.bits
  dumps_eq : freed.dumps = before.dumps
  parked_eq : freed.parkedSlots = before.parkedSlots
  allocation_eq : freed.allocation = before.allocation.erase qubit
  forgotten : freed.allocation[qubit]? = none
  recycled : ∀ next, freed.allocation[next]? = none → ∃ after single,
    alloc next false freed = .ok () after ∧ after.allocation[next]? = some slot ∧
      after.partitionOf next = .ok single ∧ single.members = [slot] ∧
      single.state.entries = [(.zero, .one)]

/-- A clean free collapses the partition of its qubit as a measurement does, and resets the slot. -/
theorem clean_free_measures {simulator : Simulator R} (arises : simulator.Arises)
    {qubit : QubitId} {slot : Nat} (found : simulator.allocation[qubit]? = some slot) :
    ∃ (place : Nat) (partition collapsed : Partition R) (bit : Bool)
      (measured freed : Simulator R),
      measure qubit simulator = .ok bit measured ∧ free qubit false simulator = .ok () freed ∧
      Released simulator measured freed qubit slot place partition collapsed := by
  have sound := arises_sound arises
  obtain ⟨place, partition, bit, draws, left, owner, stands, detaches, measured, freed⟩ :=
    measured_and_freed sound found
  have freedSound := sound_perform sound (.free qubit false)
  rw [Operation.perform, freed] at freedSound
  have owners (other : Nat) :
      left.owner? other = if other = slot then none else simulator.arena.owner? other :=
    detaches.owners other
  have here : left.partitions[place]? =
      some (without ⟨partition.state.collapse slot bit true, partition.members⟩ slot) := by
    rw [detaches.partitions, if_pos rfl]
  have vacant : left.vacant = if (partition.members.filter (· ≠ slot)).isEmpty then
      place :: simulator.arena.vacant else simulator.arena.vacant := detaches.vacant
  let collapsed : Partition R := { partition with state := partition.state.collapse slot bit false }
  refine ⟨place, partition, collapsed, bit, _, _, measured, freed, ?_⟩
  exact {
    owner := owner
    stands := stands
    collapsed_stands := with_state_stands stands _
    draws_eq := rfl
    shared := fun other member different => by
      have listed : other ∈ others partition slot := by simp [others, member, different]
      have wellFormed : simulator.arena.WellFormed := sound.unlimited.arena
      refine ⟨_, ?_, here.trans (congrArg some (if_neg ?_)), rfl, ?_⟩
      · rw [owners, if_neg different, wellFormed.owner_of_member stands member]
      · rw [List.isEmpty_iff]
        exact List.ne_nil_of_mem listed
      · exact partition.state.reset_entries_perm slot bit
    lone := fun lone => by
      refine ⟨?_, count_of_lone sound.unlimited.arena freedSound.unlimited.arena owner stands lone
        owners⟩
      rw [vacant, if_pos (by simp [lone])]
      exact List.mem_cons_self
    untouched := untouched_detaches owner detaches
    disowned := (owners slot).trans (if_pos rfl)
    registers_eq := rfl
    bits_eq := rfl
    dumps_eq := rfl
    parked_eq := rfl
    allocation_eq := rfl
    forgotten := (get_erase simulator.allocation qubit qubit).trans (if_pos rfl)
    recycled := fun _ unknown => alloc_recycled freedSound rfl unknown }

/-- The second qubit of the pair leaves the first one alone, and its slot is taken next, although
the limit is below the slots in use. -/
theorem joined_pair_released :
    ∃ bit measured freed kept after, measure ⟨1⟩ joinedPair = .ok bit measured ∧
      free ⟨1⟩ false joinedPair = .ok () freed ∧ freed.draws = measured.draws ∧
      freed.arena.partitions[1]? = some kept ∧ kept.members = [0] ∧
      alloc ⟨7⟩ false freed = .ok () after ∧ after.allocation[(⟨7⟩ : QubitId)]? = some 1 := by
  have allocated : joinedPair.allocation[(⟨1⟩ : QubitId)]? = some 1 := by decide +kernel
  have members : joinedPair.arena.partitions[1]?.map (·.members) = some [1, 0] := by decide +kernel
  obtain ⟨place, partition, _, bit, measured, freed, measures, frees, released⟩ :=
    clean_free_measures joined_pair_arises allocated
  cases released.owner.symm.trans (by decide +kernel : joinedPair.arena.owner? 1 = some 1)
  rw [released.stands, Option.map_some, Option.some.injEq] at members
  obtain ⟨kept, _, standsLeft, left, _⟩ := released.shared 0 (by simp [members]) (by decide)
  obtain ⟨after, _, handed, found, _⟩ :=
    released.recycled ⟨7⟩ (by rw [released.allocation_eq]; decide +kernel)
  refine ⟨bit, measured, freed, kept, after, measures, frees, released.draws_eq, standsLeft, ?_,
    handed, found⟩
  rw [left, members]
  rfl

end Simulator

end SparseQuantum
