import Mathlib
import SparseQuantum.Proofs.Entries
import SparseQuantum.Proofs.Grouping
import SparseQuantum.Proofs.Positions
import SparseQuantum.Simulator.Operations

/-!
# Which slots there are, and what reading them gives

In a well-formed simulator each slot that was ever handed out is allocated to one qubit, free, or
parked, and the arena owns those that are allocated or parked. Slots lie below the width, so that no
operand makes a call read a position that does not exist. The operands of a call are found when they
are allocated and do not repeat; a control is known when its partition has a single basis state.
-/

namespace SparseQuantum

set_option autoImplicit false

variable {R : Type}

namespace BasisState

theorem check_positions_ok {positions : List Nat}
    (inside : ∀ position ∈ positions, position < width) : checkPositions positions = .ok () := by
  have nothing : positions.find? (width ≤ ·) = none := by
    rw [List.find?_eq_none]
    intro position member
    have below := inside position member
    simpa using below
  rw [checkPositions, nothing]

theorem stray_read_none (index : BasisState) {positions : List Nat}
    (inside : ∀ position ∈ positions, position < width) : index.strayRead? positions = none := by
  have read : ∃ value, index.allOnes? positions = .ok value := by
    induction positions with
    | nil => exact ⟨true, rfl⟩
    | cons position rest induction =>
        rw [allOnes?, if_pos (inside position List.mem_cons_self)]
        by_cases one : index.isOne position = true
        · rw [if_pos one]
          exact induction fun other member => inside other (List.mem_cons_of_mem _ member)
        · rw [if_neg one]
          exact ⟨false, rfl⟩
  rcases read with ⟨value, result⟩
  rw [strayRead?, result]

end BasisState

theorem SparseState.guarded_ok {α : Type} (state : SparseState R) {positions : List Nat}
    (inside : ∀ position ∈ positions, position < width) (result : α) :
    state.guarded positions result = .ok result := by
  have nothing : state.strayRead? positions = none := by
    rw [strayRead?, List.findSome?_eq_none_iff]
    exact fun entry _ => BasisState.stray_read_none entry.1 inside
  rw [guarded, nothing]

namespace Arena

/-- The value of a slot whose partition has a single basis state. -/
def known? (arena : Arena R) (slot : Nat) : Option Bool :=
  match (arena.owner? slot).bind fun place => arena.partitions[place]? with
  | some partition =>
      match partition.state.entries with
      | [(index, _)] => some (index.isOne slot)
      | _ => none
  | none => none

theorem known_eq_some_iff (arena : Arena R) (slot : Nat) (value : Bool) :
    arena.known? slot = some value ↔
      ∃ place partition index amplitude, arena.owner? slot = some place ∧
        arena.partitions[place]? = some partition ∧
        partition.state.entries = [(index, amplitude)] ∧ index.isOne slot = value := by
  rw [known?]
  cases owner : arena.owner? slot with
  | none => simp
  | some place =>
      cases found : arena.partitions[place]? with
      | none => simp [found]
      | some partition =>
          rcases entries : partition.state.entries with _ | ⟨⟨index, amplitude⟩, _ | ⟨second, rest⟩⟩
          · simp [found, entries]
          · simp [found, entries]
          · simp [found, entries]

end Arena

namespace Simulator

def Allocated (simulator : Simulator R) (slot : Nat) : Prop :=
  ∃ qubit : QubitId, simulator.allocation[qubit]? = some slot

/-! ### Operands -/

theorem slot_of_eq_ok_iff (simulator : Simulator R) (qubit : QubitId) (slot : Nat) :
    simulator.slotOf qubit = .ok slot ↔ simulator.allocation[qubit]? = some slot := by
  rw [slotOf]
  cases simulator.allocation[qubit]? <;> simp

/-- Operands are found when they are allocated, do not repeat and were not seen before. -/
theorem slots_of_eq_ok_iff (simulator : Simulator R) (seen qubits : List QubitId)
    (slots : List Nat) :
    simulator.slotsOf seen qubits = .ok slots ↔
      qubits.Nodup ∧ List.Disjoint qubits seen ∧
        qubits.map (simulator.allocation[·]?) = slots.map some := by
  induction qubits generalizing seen slots with
  | nil =>
      rw [slotsOf, Except.ok.injEq]
      constructor
      · intro same
        rw [← same]
        exact ⟨List.nodup_nil, List.disjoint_nil_left seen, rfl⟩
      · rintro ⟨_, _, read⟩
        exact (List.map_eq_nil_iff.1 read.symm).symm
  | cons qubit rest induction =>
      rw [slotsOf]
      by_cases repeated : qubit ∈ seen
      · rw [if_pos repeated]
        constructor
        · intro refused
          exact absurd refused (by simp)
        · rintro ⟨_, apart, _⟩
          exact absurd repeated (fun member => apart List.mem_cons_self member)
      · rw [if_neg repeated, List.nodup_cons, List.disjoint_cons_left, List.map_cons]
        cases read : simulator.allocation[qubit]? with
        | none =>
            rw [slotOf, read]
            constructor
            · intro refused
              exact absurd refused (by simp [bind, Except.bind])
            · rintro ⟨_, _, found⟩
              cases slots <;> simp at found
        | some slot =>
            rw [slotOf, read]
            change ((simulator.slotsOf (qubit :: seen) rest) >>= fun slots =>
              .ok (slot :: slots)) = .ok slots ↔ _
            cases others : simulator.slotsOf (qubit :: seen) rest with
            | error error =>
                constructor
                · intro refused
                  exact absurd refused (by simp [bind, Except.bind])
                · rintro ⟨⟨fresh, distinct⟩, ⟨_, apart⟩, found⟩
                  cases slots with
                  | nil => simp at found
                  | cons first slots =>
                      rw [List.map_cons, List.cons.injEq] at found
                      have result := (induction (qubit :: seen) slots).2
                        ⟨distinct, List.disjoint_cons_right.2 ⟨fresh, apart⟩, found.2⟩
                      rw [others] at result
                      exact absurd result (by simp)
            | ok later =>
                have spec := (induction (qubit :: seen) later).1 others
                rw [List.disjoint_cons_right] at spec
                change Except.ok (slot :: later) = .ok slots ↔ _
                rw [Except.ok.injEq, spec.2.2]
                constructor
                · intro same
                  rw [← same]
                  exact ⟨⟨spec.2.1.1, spec.1⟩, ⟨repeated, spec.2.1.2⟩, rfl⟩
                · rintro ⟨_, _, found⟩
                  exact List.map_injective_iff.2 (Option.some_injective Nat) found

/-- What the operands of a call are: the slots of different allocated qubits. -/
def Operands (simulator : Simulator R) (qubits : List QubitId) (slots : List Nat) : Prop :=
  qubits.Nodup ∧ qubits.map (simulator.allocation[·]?) = slots.map some

theorem slots_of_operands (simulator : Simulator R) (qubits : List QubitId) (slots : List Nat) :
    simulator.slotsOf [] qubits = .ok slots ↔ simulator.Operands qubits slots := by
  rw [slots_of_eq_ok_iff, Operands]
  constructor
  · rintro ⟨distinct, _, read⟩
    exact ⟨distinct, read⟩
  · rintro ⟨distinct, read⟩
    exact ⟨distinct, List.disjoint_nil_right qubits, read⟩

theorem Operands.allocated {simulator : Simulator R} {qubits : List QubitId} {slots : List Nat}
    (found : simulator.Operands qubits slots) {slot : Nat} (member : slot ∈ slots) :
    simulator.Allocated slot := by
  have source : some slot ∈ slots.map some := List.mem_map.2 ⟨slot, member, rfl⟩
  rw [← found.2] at source
  obtain ⟨qubit, _, read⟩ := List.mem_map.1 source
  exact ⟨qubit, read⟩

theorem Operands.length {simulator : Simulator R} {qubits : List QubitId} {slots : List Nat}
    (found : simulator.Operands qubits slots) : slots.length = qubits.length := by
  have lengths := congrArg List.length found.2
  rw [List.length_map, List.length_map] at lengths
  exact lengths.symm

/-! ### Well-formed simulators -/

variable [Scalar R]

structure WellFormed (simulator : Simulator R) : Prop where
  arena : simulator.arena.WellFormed
  table_injective : ∀ (first second : QubitId) (slot : Nat),
    simulator.allocation[first]? = some slot → simulator.allocation[second]? = some slot →
      first = second
  free_distinct : simulator.freeSlots.Nodup
  parked_distinct : simulator.parkedSlots.Nodup
  free_unallocated : ∀ slot ∈ simulator.freeSlots, ¬simulator.Allocated slot
  parked_unallocated : ∀ slot ∈ simulator.parkedSlots, ¬simulator.Allocated slot
  free_not_parked : List.Disjoint simulator.freeSlots simulator.parkedSlots
  issued_iff : ∀ slot, slot < simulator.nextSlot ↔
    simulator.Allocated slot ∨ slot ∈ simulator.freeSlots ∨ slot ∈ simulator.parkedSlots
  next_le : simulator.nextSlot ≤ simulator.maxQubits
  max_le : simulator.maxQubits ≤ width
  owns_iff : ∀ slot, simulator.arena.Owns slot ↔
    simulator.Allocated slot ∨ slot ∈ simulator.parkedSlots

namespace WellFormed

variable {simulator : Simulator R} (wellFormed : simulator.WellFormed)

include wellFormed

theorem slot_lt_width {slot : Nat} (issued : slot < simulator.nextSlot) : slot < width :=
  Nat.lt_of_lt_of_le issued (Nat.le_trans wellFormed.next_le wellFormed.max_le)

theorem allocated_lt_width {slot : Nat} (allocated : simulator.Allocated slot) : slot < width :=
  wellFormed.slot_lt_width ((wellFormed.issued_iff slot).2 (Or.inl allocated))

theorem owned_of_allocated {slot : Nat} (allocated : simulator.Allocated slot) :
    simulator.arena.Owns slot := (wellFormed.owns_iff slot).2 (Or.inl allocated)

theorem not_owned_of_free {slot : Nat} (free : slot ∈ simulator.freeSlots) :
    ¬simulator.arena.Owns slot := by
  rw [wellFormed.owns_iff]
  rintro (allocated | parked)
  · exact wellFormed.free_unallocated slot free allocated
  · exact wellFormed.free_not_parked free parked

theorem not_owned_of_fresh {slot : Nat} (fresh : simulator.nextSlot ≤ slot) :
    ¬simulator.arena.Owns slot := by
  rw [wellFormed.owns_iff]
  intro owned
  have issued : slot < simulator.nextSlot := by
    rw [wellFormed.issued_iff]
    rcases owned with allocated | parked
    · exact Or.inl allocated
    · exact Or.inr (Or.inr parked)
  omega

end WellFormed

theorem Operands.distinct {simulator : Simulator R} (wellFormed : simulator.WellFormed)
    {qubits : List QubitId} {slots : List Nat} (found : simulator.Operands qubits slots) :
    slots.Nodup := by
  have mapped : (qubits.map (simulator.allocation[·]?)).Nodup := by
    refine List.Nodup.map_on ?_ found.1
    intro first firstMember second secondMember same
    have read : simulator.allocation[first]? ∈ slots.map some := by
      rw [← found.2]
      exact List.mem_map.2 ⟨first, firstMember, rfl⟩
    obtain ⟨slot, _, here⟩ := List.mem_map.1 read
    exact wellFormed.table_injective first second slot here.symm (by rw [← same, here])
  rw [found.2] at mapped
  exact mapped.of_map some

/-! ### Known controls -/

/-- The controls that matter are those not known to be 1; one known to be 0 decides. -/
theorem live_controls_eq {simulator : Simulator R} (wellFormed : simulator.WellFormed)
    {slots : List Nat} (allocated : ∀ slot ∈ slots, simulator.Allocated slot) :
    simulator.liveControls slots =
      .ok (if ∃ slot ∈ slots, simulator.arena.known? slot = some false then none
        else some (slots.filter fun slot => simulator.arena.known? slot ≠ some true)) := by
  induction slots with
  | nil => simp [liveControls]
  | cons slot rest induction =>
      have later := induction fun other member => allocated other (List.mem_cons_of_mem _ member)
      have here := allocated slot List.mem_cons_self
      obtain ⟨place, owner⟩ := wellFormed.owned_of_allocated here
      obtain ⟨partition, found, _, _⟩ := wellFormed.arena.partition_of_owner owner
      have read : simulator.arena.partition place = .ok partition := by
        rw [Arena.partition, found]
      have known : simulator.arena.known? slot = match partition.state.entries with
          | [(index, _)] => some (index.isOne slot)
          | _ => none := by
        rw [Arena.known?, owner, Option.bind_some, found]
      rw [liveControls, owner]
      change (simulator.arena.partition place >>= _) = _
      rw [read]
      change (match partition.state.entries with
        | [(index, _)] => do
            BasisState.checkPositions [slot]
            if index.isZero slot then .ok none else simulator.liveControls rest
        | _ => do .ok ((← simulator.liveControls rest).map (slot :: ·))) = _
      have keep (unknown : simulator.arena.known? slot = none) :
          (do .ok ((← simulator.liveControls rest).map (slot :: ·)) :
            Except Fault (Option (List Nat))) =
          .ok (if ∃ other ∈ slot :: rest, simulator.arena.known? other = some false then none
            else some ((slot :: rest).filter fun other =>
              simulator.arena.known? other ≠ some true)) := by
        rw [later]
        by_cases zero : ∃ other ∈ rest, simulator.arena.known? other = some false
        · simp [bind, Except.bind, zero, unknown]
        · simp [bind, Except.bind, zero, unknown]
      rcases entries : partition.state.entries with _ | ⟨⟨index, amplitude⟩, _ | ⟨second, others⟩⟩
      · rw [entries] at known
        exact keep known
      · rw [entries] at known
        have inside : BasisState.checkPositions [slot] = .ok () := by
          apply BasisState.check_positions_ok
          intro position member
          rw [List.mem_singleton.1 member]
          exact wellFormed.allocated_lt_width here
        simp only [inside]
        change (if index.isZero slot then _ else simulator.liveControls rest) = _
        rw [BasisState.isZero]
        cases one : index.isOne slot with
        | false => simp [known, one]
        | true => simp [known, one, later]
      · rw [entries] at known
        exact keep known

end Simulator

end SparseQuantum
