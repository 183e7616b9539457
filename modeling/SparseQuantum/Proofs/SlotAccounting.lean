import Mathlib
import SparseQuantum.Proofs.Reachability

/-!
# Every slot is accounted for

In a reachable simulator the allocated, the free and the parked slots are, each once, the slots that
were ever handed out. Counting them tells exactly when no slot is left to allocate, and an arena
that owns no slot has no partition.
-/

namespace SparseQuantum

set_option autoImplicit false

variable {R : Type}

namespace Arena

variable [Scalar R]

theorem count_of_owns_nothing {arena : Arena R} (wellFormed : arena.WellFormed)
    (nothing : ∀ slot, ¬arena.Owns slot) : arena.count = .ok 0 := by
  have vacant : ∀ place, place < arena.partitions.size → place ∈ arena.vacant := by
    intro place inside
    by_contra used
    have found := Array.getElem?_eq_getElem inside
    obtain ⟨slot, member⟩ :=
      List.exists_mem_of_ne_nil _ (wellFormed.members_exist place _ found used)
    exact nothing slot ⟨place, wellFormed.owner_of_member found member⟩
  have rearranged : arena.vacant.Perm (List.range arena.partitions.size) := by
    rw [List.perm_ext_iff_of_nodup wellFormed.vacant_distinct List.nodup_range]
    intro place
    rw [List.mem_range]
    exact ⟨wellFormed.lt_size_of_vacant, vacant place⟩
  have length : arena.vacant.length = arena.partitions.size := by
    rw [rearranged.length_eq, List.length_range]
  rw [count, if_pos (Nat.le_of_eq length), length, Nat.sub_self]

end Arena

namespace Simulator

def tableSlots (simulator : Simulator R) : List Nat := simulator.allocation.toList.map Prod.snd

theorem length_table_slots (simulator : Simulator R) :
    simulator.tableSlots.length = simulator.allocation.size := by
  rw [tableSlots, List.length_map, Std.ExtTreeMap.length_toList]

theorem mem_table_slots (simulator : Simulator R) (slot : Nat) :
    slot ∈ simulator.tableSlots ↔ simulator.Allocated slot := by
  rw [tableSlots, List.mem_map]
  constructor
  · rintro ⟨⟨qubit, held⟩, member, same⟩
    have found := Std.ExtTreeMap.mem_toList_iff_getElem?_eq_some.1 member
    exact ⟨qubit, by rw [found, ← same]⟩
  · rintro ⟨qubit, found⟩
    exact ⟨(qubit, slot), Std.ExtTreeMap.mem_toList_iff_getElem?_eq_some.2 found, rfl⟩

namespace WellFormed

variable [Scalar R] {simulator : Simulator R} (wellFormed : simulator.WellFormed)

include wellFormed

theorem table_slots_distinct : simulator.tableSlots.Nodup := by
  have distinct := simulator.allocation.distinct_keys_toList
  rw [tableSlots, List.Nodup, List.pairwise_map]
  refine distinct.imp_of_mem ?_
  intro first second firstMember secondMember different same
  have firstFound := Std.ExtTreeMap.mem_toList_iff_getElem?_eq_some.1 firstMember
  have secondFound := Std.ExtTreeMap.mem_toList_iff_getElem?_eq_some.1 secondMember
  rw [← same] at secondFound
  apply different
  rw [wellFormed.table_injective first.1 second.1 first.2 firstFound secondFound]
  exact Std.ReflOrd.compare_self

/-- The slots in the table, the free and the parked ones are those that were ever handed out. -/
theorem slots_perm :
    (simulator.tableSlots ++ (simulator.freeSlots ++ simulator.parkedSlots)).Perm
      (List.range simulator.nextSlot) := by
  have apart : (simulator.tableSlots ++ (simulator.freeSlots ++ simulator.parkedSlots)).Nodup := by
    rw [List.nodup_append', List.nodup_append']
    refine ⟨wellFormed.table_slots_distinct, ⟨wellFormed.free_distinct,
      wellFormed.parked_distinct, wellFormed.free_not_parked⟩, ?_⟩
    intro slot inTable elsewhere
    rw [mem_table_slots] at inTable
    rcases List.mem_append.1 elsewhere with free | parked
    · exact wellFormed.free_unallocated slot free inTable
    · exact wellFormed.parked_unallocated slot parked inTable
  rw [List.perm_ext_iff_of_nodup apart List.nodup_range]
  intro slot
  rw [List.mem_append, List.mem_append, mem_table_slots, List.mem_range, wellFormed.issued_iff]

theorem slots_count :
    simulator.allocation.size + simulator.freeSlots.length + simulator.parkedSlots.length =
      simulator.nextSlot := by
  have lengths := wellFormed.slots_perm.length_eq
  rw [List.length_append, List.length_append, length_table_slots, List.length_range] at lengths
  omega

/-- An allocation fails for want of a slot: none to unpark if it is dirty, none free, none new. -/
theorem alloc_fails_iff {qubit : QubitId} (unknown : simulator.allocation[qubit]? = none)
    (dirty : Bool) :
    Fails (alloc qubit dirty simulator) ↔
      (dirty = true → simulator.parkedSlots = []) ∧ simulator.freeSlots = [] ∧
        simulator.nextSlot = simulator.maxQubits := by
  have outcome := alloc_outcome wellFormed qubit dirty
  generalize alloc qubit dirty simulator = result at outcome
  cases outcome with
  | known known =>
      rw [Std.ExtTreeMap.contains_eq_isSome_getElem?, unknown] at known
      exact absurd known (by decide)
  | unparked _ isDirty parked =>
      refine ⟨False.elim, fun stuck => ?_⟩
      have nothing := stuck.1 isDirty
      rw [parked] at nothing
      exact List.cons_ne_nil _ _ nothing
  | exhausted _ unparked noneFree full =>
      exact ⟨fun _ => ⟨unparked, noneFree, full⟩, fun _ => trivial⟩
  | fresh _ _ takes _ _ =>
      refine ⟨False.elim, fun stuck => ?_⟩
      cases takes with
      | recycled free =>
          have nothing := stuck.2.1
          rw [free] at nothing
          exact List.cons_ne_nil _ _ nothing
      | issued _ room => exact Nat.ne_of_lt room stuck.2.2

theorem clean_alloc_fails_iff {qubit : QubitId} (unknown : simulator.allocation[qubit]? = none) :
    Fails (alloc qubit false simulator) ↔
      simulator.allocation.size + simulator.parkedSlots.length = simulator.maxQubits := by
  have count := wellFormed.slots_count
  have bound := wellFormed.next_le
  rw [wellFormed.alloc_fails_iff unknown]
  constructor
  · rintro ⟨_, noneFree, full⟩
    rw [noneFree, List.length_nil] at count
    omega
  · intro all
    have noneFree : simulator.freeSlots.length = 0 := by omega
    exact ⟨fun absurdity => by simp at absurdity, List.length_eq_zero_iff.1 noneFree, by omega⟩

theorem dirty_alloc_fails_iff {qubit : QubitId} (unknown : simulator.allocation[qubit]? = none) :
    Fails (alloc qubit true simulator) ↔
      simulator.parkedSlots = [] ∧ simulator.allocation.size = simulator.maxQubits := by
  have count := wellFormed.slots_count
  have bound := wellFormed.next_le
  rw [wellFormed.alloc_fails_iff unknown]
  constructor
  · rintro ⟨noneParked, noneFree, full⟩
    rw [noneParked rfl, noneFree, List.length_nil] at count
    exact ⟨noneParked rfl, by omega⟩
  · rintro ⟨noneParked, all⟩
    have noneFree : simulator.freeSlots.length = 0 := by omega
    exact ⟨fun _ => noneParked, List.length_eq_zero_iff.1 noneFree, by omega⟩

theorem count_of_all_freed (nobody : simulator.allocation.size = 0)
    (noneParked : simulator.parkedSlots = []) : simulator.partitionCount = .ok 0 := by
  apply Arena.count_of_owns_nothing wellFormed.arena
  intro slot owned
  rw [wellFormed.owns_iff, noneParked] at owned
  rcases owned with allocated | parked
  · rw [← mem_table_slots] at allocated
    rw [← length_table_slots, List.length_eq_zero_iff] at nobody
    rw [nobody] at allocated
    exact absurd allocated List.not_mem_nil
  · exact absurd parked List.not_mem_nil

end WellFormed

/-- Every slot below the next one is allocated to one qubit, free or parked, and the arena owns
those that are allocated or parked. So allocations fail exactly when all slots are taken, and no
partition outlives the last qubit. -/
structure Accounts [Scalar R] (simulator : Simulator R) : Prop where
  table_injective : ∀ (first second : QubitId) (slot : Nat),
    simulator.allocation[first]? = some slot → simulator.allocation[second]? = some slot →
      first = second
  free_distinct : simulator.freeSlots.Nodup
  parked_distinct : simulator.parkedSlots.Nodup
  free_unallocated : ∀ slot ∈ simulator.freeSlots, ¬simulator.Allocated slot
  parked_unallocated : ∀ slot ∈ simulator.parkedSlots, ¬simulator.Allocated slot
  free_not_parked : List.Disjoint simulator.freeSlots simulator.parkedSlots
  issued_iff : ∀ slot, slot < simulator.nextSlot ↔
    simulator.Allocated slot ∨ slot ∈ simulator.freeSlots ∨ slot ∈ simulator.parkedSlots
  next_le : simulator.nextSlot ≤ simulator.maxQubits
  max_le : simulator.maxQubits ≤ 1024
  owns_iff : ∀ slot, simulator.arena.Owns slot ↔
    simulator.Allocated slot ∨ slot ∈ simulator.parkedSlots
  clean_alloc_fails_iff : ∀ qubit : QubitId, simulator.allocation[qubit]? = none →
    (Fails (alloc qubit false simulator) ↔
      simulator.allocation.size + simulator.parkedSlots.length = simulator.maxQubits)
  dirty_alloc_fails_iff : ∀ qubit : QubitId, simulator.allocation[qubit]? = none →
    (Fails (alloc qubit true simulator) ↔
      simulator.parkedSlots = [] ∧ simulator.allocation.size = simulator.maxQubits)
  count_of_all_freed : simulator.allocation.size = 0 → simulator.parkedSlots = [] →
    simulator.partitionCount = .ok 0

/-- After any run from a new simulator, limited at once or not, its slots are accounted for. -/
theorem slots_accounted_for [Scalar R] {simulator : Simulator R}
    (reached : Reachable (fun _ _ => True) simulator) : simulator.Accounts := by
  have wellFormed := reachable_well_formed reached
  exact {
    table_injective := wellFormed.table_injective
    free_distinct := wellFormed.free_distinct
    parked_distinct := wellFormed.parked_distinct
    free_unallocated := wellFormed.free_unallocated
    parked_unallocated := wellFormed.parked_unallocated
    free_not_parked := wellFormed.free_not_parked
    issued_iff := wellFormed.issued_iff
    next_le := wellFormed.next_le
    max_le := wellFormed.max_le
    owns_iff := wellFormed.owns_iff
    clean_alloc_fails_iff := fun _ unknown => wellFormed.clean_alloc_fails_iff unknown
    dirty_alloc_fails_iff := fun _ unknown => wellFormed.dirty_alloc_fails_iff unknown
    count_of_all_freed := wellFormed.count_of_all_freed }

def parkedOnly : Simulator Float :=
  leaves ((Operation.free ⟨0⟩ true).perform
    (leaves ((Operation.alloc ⟨0⟩ false).perform ((ofSeed width 7).withMaxQubits 1))))

theorem parked_only_reachable : Reachable (fun _ _ => True) parkedOnly :=
  .step (.step (.limited (.started (fun _ => none) "plugins" "dumps" 7) 7 1) trivial) trivial

theorem parked_only_alloc :
    Fails (alloc ⟨1⟩ false parkedOnly) ∧ ¬Fails (alloc ⟨1⟩ true parkedOnly) := by
  have accounts := slots_accounted_for parked_only_reachable
  constructor
  · rw [accounts.clean_alloc_fails_iff ⟨1⟩ (by rfl)]
    rfl
  · rw [accounts.dirty_alloc_fails_iff ⟨1⟩ (by rfl)]
    rintro ⟨noneParked, _⟩
    have parked : parkedOnly.parkedSlots = [0] := by rfl
    rw [parked] at noneParked
    exact List.cons_ne_nil _ _ noneParked

end Simulator

end SparseQuantum
