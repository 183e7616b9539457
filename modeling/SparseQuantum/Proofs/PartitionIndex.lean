import Mathlib
import SparseQuantum.Proofs.ChangingLimit

/-!
# The index of partitions

An arena tells the partition of a slot through its index of owners, and the places that can be used
again through a list. In every simulator that a run leaves, both agree with the members that the
partitions keep: a place is vacant or holds the slots that name it as their owner, at least one.
-/

namespace SparseQuantum

set_option autoImplicit false

variable {R : Type} [Scalar R]

namespace Arena

def livePlaces (arena : Arena R) : Finset Nat :=
  (Finset.range arena.partitions.size).filter (· ∉ arena.vacant)

namespace WellFormed

variable {arena : Arena R} (wellFormed : arena.WellFormed)

include wellFormed

theorem owner_iff_used (slot place : Nat) :
    arena.owner? slot = some place ↔ place ∉ arena.vacant ∧
      ∃ partition, arena.partitions[place]? = some partition ∧ slot ∈ partition.members := by
  constructor
  · intro owner
    obtain ⟨partition, found, member, used⟩ := wellFormed.partition_of_owner owner
    exact ⟨used, partition, found, member⟩
  · rintro ⟨_, partition, found, member⟩
    exact wellFormed.owner_of_member found member

theorem owns_iff_member (slot : Nat) :
    arena.Owns slot ↔ ∃ place partition, place ∉ arena.vacant ∧
      arena.partitions[place]? = some partition ∧ slot ∈ partition.members := by
  constructor
  · rintro ⟨place, owner⟩
    obtain ⟨partition, found, member, used⟩ := wellFormed.partition_of_owner owner
    exact ⟨place, partition, used, found, member⟩
  · rintro ⟨place, partition, _, found, member⟩
    exact ⟨place, wellFormed.owner_of_member found member⟩

theorem mem_live_places_iff (place : Nat) :
    place ∈ arena.livePlaces ↔ ∃ slot, arena.owner? slot = some place := by
  unfold livePlaces
  rw [Finset.mem_filter, Finset.mem_range]
  constructor
  · rintro ⟨inside, used⟩
    have found := Array.getElem?_eq_getElem inside
    obtain ⟨slot, member⟩ :=
      List.exists_mem_of_ne_nil _ (wellFormed.members_exist place _ found used)
    exact ⟨slot, wellFormed.owner_of_member found member⟩
  · rintro ⟨slot, owner⟩
    obtain ⟨partition, found, _, used⟩ := wellFormed.partition_of_owner owner
    exact ⟨(Array.getElem?_eq_some_iff.1 found).1, used⟩

theorem vacant_subset_range :
    arena.vacant.toFinset ⊆ Finset.range arena.partitions.size := by
  intro place vacant
  rw [List.mem_toFinset] at vacant
  exact Finset.mem_range.2 (wellFormed.lt_size_of_vacant vacant)

theorem vacant_length_le : arena.vacant.length ≤ arena.partitions.size := by
  have bound := Finset.card_le_card wellFormed.vacant_subset_range
  rw [List.toFinset_card_of_nodup wellFormed.vacant_distinct, Finset.card_range] at bound
  exact bound

theorem count_eq_card : arena.count = .ok arena.livePlaces.card := by
  have rest : arena.livePlaces = Finset.range arena.partitions.size \ arena.vacant.toFinset := by
    ext place
    simp [livePlaces]
  have size : arena.livePlaces.card = arena.partitions.size - arena.vacant.length := by
    rw [rest, Finset.card_sdiff_of_subset wellFormed.vacant_subset_range, Finset.card_range,
      List.toFinset_card_of_nodup wellFormed.vacant_distinct]
  unfold count
  rw [if_pos wellFormed.vacant_length_le, size]

end WellFormed

end Arena

namespace Simulator

omit [Scalar R] in
theorem partition_of_owned {simulator : Simulator R} {qubit : QubitId} {slot place : Nat}
    {partition : Partition R} (found : simulator.allocation[qubit]? = some slot)
    (owner : simulator.arena.owner? slot = some place)
    (stands : simulator.arena.partitions[place]? = some partition) :
    simulator.partitionOf qubit = .ok partition := by
  unfold partitionOf
  rw [(slot_of_eq_ok_iff simulator qubit slot).2 found]
  dsimp only [Except.mapError, bind, Except.bind]
  rw [owner]
  dsimp only
  rw [Arena.partition, stands]

/-- Without its limit a simulator finds the same partition for a qubit. -/
theorem partition_of_allocated {simulator : Simulator R} (sound : simulator.Sound)
    {qubit : QubitId} {slot : Nat} (found : simulator.allocation[qubit]? = some slot) :
    ∃ place partition, simulator.arena.owner? slot = some place ∧
      simulator.arena.partitions[place]? = some partition ∧ slot ∈ partition.members ∧
      simulator.partitionOf qubit = .ok partition := by
  have wellFormed : simulator.arena.WellFormed := sound.unlimited.arena
  obtain ⟨place, owner⟩ := sound.unlimited.owned_of_allocated ⟨qubit, found⟩
  obtain ⟨partition, stands, member, _⟩ := wellFormed.partition_of_owner owner
  exact ⟨place, partition, owner, stands, member, partition_of_owned found owner stands⟩

/-- The vacant places are listed once each, every other place has members, none twice, and a slot is
a member exactly where its owner says. So the partitions in use are disjoint, hold the owned slots
and are as many as counted, and each allocated qubit finds its own. -/
structure Indexed (simulator : Simulator R) : Prop where
  vacant_distinct : simulator.arena.vacant.Nodup
  lt_size_of_vacant : ∀ place ∈ simulator.arena.vacant, place < simulator.arena.partitions.size
  members : ∀ (place : Nat) (partition : Partition R), place ∉ simulator.arena.vacant →
    simulator.arena.partitions[place]? = some partition →
      partition.members ≠ [] ∧ partition.members.Nodup
  owner_iff : ∀ slot place, simulator.arena.owner? slot = some place ↔
    place ∉ simulator.arena.vacant ∧ ∃ partition,
      simulator.arena.partitions[place]? = some partition ∧ slot ∈ partition.members
  disjoint : ∀ (first second : Nat) (left right : Partition R), first ≠ second →
    simulator.arena.partitions[first]? = some left →
    simulator.arena.partitions[second]? = some right →
      List.Disjoint left.members right.members
  owns_iff : ∀ slot, simulator.arena.Owns slot ↔ ∃ place partition,
    place ∉ simulator.arena.vacant ∧ simulator.arena.partitions[place]? = some partition ∧
      slot ∈ partition.members
  vacant_length_le : simulator.arena.vacant.length ≤ simulator.arena.partitions.size
  mem_live_places_iff : ∀ place, place ∈ simulator.arena.livePlaces ↔
    ∃ slot, simulator.arena.owner? slot = some place
  count_eq : simulator.partitionCount = .ok simulator.arena.livePlaces.card
  found : ∀ (qubit : QubitId) (slot : Nat), simulator.allocation[qubit]? = some slot →
    ∃ place partition, simulator.arena.owner? slot = some place ∧
      simulator.arena.partitions[place]? = some partition ∧ slot ∈ partition.members ∧
      simulator.partitionOf qubit = .ok partition

/-- However a run goes, the arena keeps its index. -/
theorem partitions_indexed {simulator : Simulator R} (arises : simulator.Arises) :
    simulator.Indexed := by
  have sound := arises_sound arises
  have wellFormed : simulator.arena.WellFormed := sound.unlimited.arena
  exact {
    vacant_distinct := wellFormed.vacant_distinct
    lt_size_of_vacant := fun _ vacant => wellFormed.lt_size_of_vacant vacant
    members := fun place partition used found =>
      ⟨wellFormed.members_exist place partition found used,
        wellFormed.members_distinct place partition found⟩
    owner_iff := wellFormed.owner_iff_used
    disjoint := fun _ _ _ _ different left right =>
      wellFormed.members_disjoint left right different
    owns_iff := wellFormed.owns_iff_member
    vacant_length_le := wellFormed.vacant_length_le
    mem_live_places_iff := wellFormed.mem_live_places_iff
    count_eq := wellFormed.count_eq_card
    found := fun _ _ found => partition_of_allocated sound found }

/-- Two qubits that a dump has joined, before the limit was lowered below their number. -/
def joinedPair : Simulator Float :=
  (leaves ((Operation.dump [⟨1⟩, ⟨0⟩]).perform
    (leaves ((Operation.alloc ⟨1⟩ false).perform
      (leaves ((Operation.alloc ⟨0⟩ false).perform (ofSeed width 7))))))).withMaxQubits 1

theorem joined_pair_arises : joinedPair.Arises :=
  .limited (.performed (.performed (.performed
    (.seeded (.started (fun _ => none) "plugins" "dumps" 7) 7) _) _) _) 1

theorem joined_pair_indexed :
    joinedPair.arena.vacant = [0] ∧ joinedPair.partitionCount = .ok 1 ∧
      ∃ partition, joinedPair.partitionOf ⟨0⟩ = .ok partition ∧ 0 ∈ partition.members := by
  have indexed := partitions_indexed joined_pair_arises
  obtain ⟨_, partition, _, _, member, answer⟩ := indexed.found ⟨0⟩ 0 (by rfl)
  have one : joinedPair.arena.livePlaces.card = 1 := by decide +kernel
  have count := indexed.count_eq
  rw [one] at count
  exact ⟨by decide +kernel, count, partition, answer, member⟩

end Simulator

end SparseQuantum
