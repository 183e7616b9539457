import Mathlib
import SparseQuantum.Proofs.Branches
import SparseQuantum.Proofs.FailingInstructions
import SparseQuantum.Proofs.LocalMeasurement
import SparseQuantum.Proofs.Refinement

/-!
# Bits that are measured together

Each measurement keeps the basis states of one branch, which is not empty, and changes nothing else.
So after several of them some basis states are still left in every partition, they agree with all
the bits that were measured, and they were there before the first one.
-/

namespace SparseQuantum

set_option autoImplicit false

variable {R : Type}

/-- Every partition in use stores something. -/
def Arena.Inhabited (arena : Arena R) : Prop :=
  ∀ (place : Nat) (partition : Partition R), place ∉ arena.vacant →
    arena.partitions[place]? = some partition → ∃ index, partition.state.Stores index

theorem Arena.Inhabited.choice {arena : Arena R} (inhabited : arena.Inhabited) :
    ∃ choice : Nat → BasisState, ∀ (place : Nat) (partition : Partition R), place ∉ arena.vacant →
      arena.partitions[place]? = some partition → partition.state.Stores (choice place) := by
  have here (place : Nat) : ∃ index, ∀ partition, place ∉ arena.vacant →
      arena.partitions[place]? = some partition → partition.state.Stores index := by
    by_cases used : place ∈ arena.vacant
    · exact ⟨.zero, fun _ live => absurd used live⟩
    · cases found : arena.partitions[place]? with
      | none => exact ⟨.zero, fun _ _ there => by cases there⟩
      | some partition =>
          obtain ⟨index, stored⟩ := inhabited place partition used found
          exact ⟨index, fun other _ there => by cases there; exact stored⟩
  choose choice stored using here
  exact ⟨choice, stored⟩

namespace Simulator

open SparseState

/-- Every basis state of the qubit's partition has the bit at the qubit's slot. -/
def Settles (simulator : Simulator R) (qubit : QubitId) (bit : Bool) : Prop :=
  ∀ (slot place : Nat) (partition : Partition R) (index : BasisState),
    simulator.allocation[qubit]? = some slot → simulator.arena.owner? slot = some place →
    simulator.arena.partitions[place]? = some partition → partition.state.Stores index →
      index.isOne slot = bit

/-- The members are the same, and what is stored was stored before. -/
structure NarrowedTo (before after : Partition R) : Prop where
  members_eq : after.members = before.members
  subset {index : BasisState} (stored : after.state.Stores index) : before.state.Stores index

/-- Nothing changes but that partitions may store less. -/
structure Narrows (before after : Simulator R) : Prop where
  allocation_eq : after.allocation = before.allocation
  owner_eq : ∀ slot, after.arena.owner? slot = before.arena.owner? slot
  vacant_eq : after.arena.vacant = before.arena.vacant
  partitions : ∀ place : Nat, Option.Rel NarrowedTo before.arena.partitions[place]?
    after.arena.partitions[place]?

namespace Narrows

theorem refl (simulator : Simulator R) : Narrows simulator simulator where
  allocation_eq := rfl
  owner_eq _ := rfl
  vacant_eq := rfl
  partitions place := by
    cases simulator.arena.partitions[place]? with
    | none => exact .none
    | some partition => exact .some ⟨rfl, id⟩

variable {before middle after : Simulator R}

theorem trans (first : Narrows before middle) (second : Narrows middle after) :
    Narrows before after where
  allocation_eq := second.allocation_eq.trans first.allocation_eq
  owner_eq slot := (second.owner_eq slot).trans (first.owner_eq slot)
  vacant_eq := second.vacant_eq.trans first.vacant_eq
  partitions place := by
    have here := first.partitions place
    have there := second.partitions place
    generalize before.arena.partitions[place]? = earlier at here
    generalize middle.arena.partitions[place]? = between at here there
    generalize after.arena.partitions[place]? = last at there
    cases here with
    | none => exact there
    | some one =>
        cases there with
        | some two =>
            exact .some ⟨two.members_eq.trans one.members_eq,
              fun stored => one.subset (two.subset stored)⟩

theorem stays (narrows : Narrows before after) {place : Nat} {partition : Partition R}
    (found : before.arena.partitions[place]? = some partition) :
    ∃ later, after.arena.partitions[place]? = some later ∧ NarrowedTo partition later := by
  have here := narrows.partitions place
  rw [found] at here
  generalize after.arena.partitions[place]? = last at here
  cases here with
  | some one => exact ⟨_, rfl, one⟩

/-- A bit that is settled stays so. -/
theorem settles (narrows : Narrows before after) {qubit : QubitId} {bit : Bool}
    (settled : before.Settles qubit bit) : after.Settles qubit bit := by
  intro slot place partition index found owner stands stored
  rw [narrows.allocation_eq] at found
  rw [narrows.owner_eq] at owner
  have here := narrows.partitions place
  rw [stands] at here
  generalize earlier : before.arena.partitions[place]? = old at here
  cases here with
  | some one => exact settled slot place _ index found owner earlier (one.subset stored)

end Narrows

theorem narrows_with_state {before after : Simulator R} {place : Nat} {partition : Partition R}
    {state : SparseState R} (stands : before.arena.partitions[place]? = some partition)
    (subset : ∀ index, state.Stores index → partition.state.Stores index)
    (allocation : after.allocation = before.allocation)
    (arena : after.arena = before.arena.withState place state) : Narrows before after where
  allocation_eq := allocation
  owner_eq slot := by rw [arena]; rfl
  vacant_eq := by rw [arena]; rfl
  partitions other := by
    rw [arena, Arena.partition_with_state]
    by_cases here : place = other
    · rw [if_pos here, ← here, stands]
      exact .some ⟨rfl, subset _⟩
    · rw [if_neg here]
      cases before.arena.partitions[other]? with
      | none => exact .none
      | some partition => exact .some ⟨rfl, id⟩

variable [ExactScalar R]

omit [ExactScalar R] in
theorem inhabited_with_state {arena : Arena R} (inhabited : arena.Inhabited) {place : Nat}
    {partition : Partition R} (stands : arena.partitions[place]? = some partition)
    {state : SparseState R} (left : ∃ index, state.Stores index) :
    (arena.withState place state).Inhabited := by
  intro other changed live there
  rw [Arena.partition_with_state] at there
  by_cases here : place = other
  · rw [if_pos here, ← here, stands, Option.map_some, Option.some_inj] at there
    rw [← there]
    exact left
  · rw [if_neg here] at there
    exact inhabited other changed live there

/-- What the measurements of a list need of a simulator, and leave so. -/
structure Ready (simulator : Simulator R) : Prop where
  sound : simulator.Sound
  zero_free : simulator.arena.ZeroFree
  inhabited : simulator.arena.Inhabited

theorem measure_settles {before : Simulator R} (ready : before.Ready) {qubit : QubitId} {slot : Nat}
    (found : before.allocation[qubit]? = some slot) :
    ∃ bit after, measure qubit before = .ok bit after ∧ Narrows before after ∧ after.Ready ∧
      after.Settles qubit bit := by
  have outcome := measure_outcome_of_sound ready.sound qubit
  generalize answer : measure qubit before = result at outcome
  cases outcome with
  | refused unknown =>
      rw [unknown] at found
      cases found
  | @measured other place partition bit draws known owner stands sampled =>
      cases found.symm.trans known
      have wellFormed : before.arena.WellFormed := ready.sound.unlimited.arena
      obtain ⟨_, stored⟩ :=
        ready.inhabited place partition (wellFormed.used_of_owner owner) stands
      have zeroFree := ready.zero_free place partition stands
      have possible := sampled_branch (total_probability_pos zeroFree stored).ne' sampled
      obtain ⟨kept, keptStored, keptBit⟩ := stores_of_branch possible
      refine ⟨bit, _, rfl, ?_, ⟨Run.sound_of_measure ready.sound answer, ?_, ?_⟩, ?_⟩
      · exact narrows_with_state stands
          (fun index left => ((stores_collapse_iff _ _ _ index).1 left).1) rfl rfl
      · exact Arena.zero_free_with_state ready.zero_free place
          (zero_free_collapse zeroFree slot bit false)
      · exact inhabited_with_state ready.inhabited stands
          ⟨kept, (stores_collapse_iff _ _ _ kept).2 ⟨keptStored, keptBit⟩⟩
      · intro slot' place' changed index known' owner' there stored
        cases known.symm.trans known'
        cases owner.symm.trans owner'
        change (before.arena.withState place _).partitions[place]? = some changed at there
        rw [Arena.partition_with_state, if_pos rfl, stands, Option.map_some,
          Option.some_inj] at there
        rw [← there] at stored
        exact ((stores_collapse_iff _ _ _ index).1 stored).2

/-- Measuring in order settles every bit and narrows what is stored. -/
theorem measure_all_settles {before : Simulator R} (ready : before.Ready) {qubits : List QubitId}
    (allocated : ∀ qubit ∈ qubits, ∃ slot, before.allocation[qubit]? = some slot) :
    ∃ bits after, Run.measureAll qubits before = .ok bits after ∧ bits.length = qubits.length ∧
      Narrows before after ∧ after.Ready ∧
      ∀ qubit bit, (qubit, bit) ∈ qubits.zip bits → after.Settles qubit bit := by
  induction qubits generalizing before with
  | nil => exact ⟨[], before, rfl, rfl, .refl before, ready, fun _ _ member => by cases member⟩
  | cons qubit rest ih =>
      obtain ⟨slot, found⟩ := allocated qubit List.mem_cons_self
      obtain ⟨bit, middle, here, narrows, readyAgain, settled⟩ := measure_settles ready found
      have stillAllocated : ∀ other ∈ rest, ∃ slot, middle.allocation[other]? = some slot := by
        rw [narrows.allocation_eq]
        exact fun other member => allocated other (List.mem_cons_of_mem qubit member)
      obtain ⟨bits, after, later, length, onward, readyAfter, settles⟩ :=
        ih readyAgain stillAllocated
      refine ⟨bit :: bits, after, ?_, by simp [length], narrows.trans onward, readyAfter, ?_⟩
      · rw [Run.measureAll, Action.bind_of_ok here, Action.bind_of_ok later]
        rfl
      · intro other value member
        rw [List.zip_cons_cons] at member
        rcases List.mem_cons.1 member with first | inRest
        · cases first
          exact onward.settles settled
        · exact settles other value inRest

theorem with_draws_sound {simulator : Simulator R} (sound : simulator.Sound) (draws : Draws) :
    (simulator.withDraws draws).Sound :=
  ⟨sound.limit_le, sound.unlimited.with_draws draws⟩

/-- Whatever is drawn, measuring allocated qubits in order gives bits that some stored basis states,
one in each partition in use, have at the qubits' slots. Afterwards all stored basis states have
them, no partition in use has become empty, and a qubit that was listed twice gave one bit. -/
theorem measured_bits_possible {simulator : Simulator R} (arises : simulator.Arises)
    (zeroFree : simulator.arena.ZeroFree) (inhabited : simulator.arena.Inhabited)
    {qubits : List QubitId}
    (allocated : ∀ qubit ∈ qubits, ∃ slot, simulator.allocation[qubit]? = some slot)
    (draws : Draws) :
    ∃ bits after, Run.measureAll qubits (simulator.withDraws draws) = .ok bits after ∧
      bits.length = qubits.length ∧
      (∃ choice : Nat → BasisState,
        (∀ (place : Nat) (partition : Partition R), place ∉ simulator.arena.vacant →
          simulator.arena.partitions[place]? = some partition →
            partition.state.Stores (choice place)) ∧
        ∀ qubit bit slot place, (qubit, bit) ∈ qubits.zip bits →
          simulator.allocation[qubit]? = some slot → simulator.arena.owner? slot = some place →
            (choice place).isOne slot = bit) ∧
      after.allocation = simulator.allocation ∧
      (∀ slot, after.arena.owner? slot = simulator.arena.owner? slot) ∧
      (∀ qubit bit, (qubit, bit) ∈ qubits.zip bits → after.Settles qubit bit) ∧
      (∀ qubit bit other, (qubit, bit) ∈ qubits.zip bits → (qubit, other) ∈ qubits.zip bits →
        other = bit) ∧
      after.arena.vacant = simulator.arena.vacant ∧ after.arena.Inhabited := by
  have ready : (simulator.withDraws draws).Ready :=
    ⟨with_draws_sound (arises_sound arises) draws, zeroFree, inhabited⟩
  obtain ⟨bits, after, done, length, narrows, readyAfter, settles⟩ :=
    measure_all_settles ready allocated
  have wellFormed : simulator.arena.WellFormed := (arises_sound arises).unlimited.arena
  -- The basis states that are left afterwards are a choice among those before.
  obtain ⟨choice, left⟩ := readyAfter.inhabited.choice
  have agrees (qubit : QubitId) (bit : Bool) (slot place : Nat)
      (listed : (qubit, bit) ∈ qubits.zip bits) (known : simulator.allocation[qubit]? = some slot)
      (owner : simulator.arena.owner? slot = some place) : (choice place).isOne slot = bit := by
    obtain ⟨partition, found, _, used⟩ := wellFormed.partition_of_owner owner
    obtain ⟨later, there, _⟩ := narrows.stays found
    apply settles qubit bit listed slot place later (choice place) _ _ there
    · exact left place later (by rw [narrows.vacant_eq]; exact used) there
    · rw [narrows.allocation_eq]
      exact known
    · rw [narrows.owner_eq]
      exact owner
  refine ⟨bits, after, done, length, ⟨choice, ?_, agrees⟩, narrows.allocation_eq, narrows.owner_eq,
    settles, ?_, narrows.vacant_eq, readyAfter.inhabited⟩
  · intro place partition used found
    obtain ⟨later, there, one⟩ := narrows.stays found
    exact one.subset (left place later (by rw [narrows.vacant_eq]; exact used) there)
  · intro qubit bit other first second
    obtain ⟨slot, known⟩ := allocated qubit (List.of_mem_zip first).1
    obtain ⟨place, owner⟩ :=
      (arises_sound arises).unlimited.owned_of_allocated ⟨qubit, known⟩
    rw [← agrees qubit bit slot place first known owner,
      ← agrees qubit other slot place second known owner]

/-- The rotated qubit could be either, but gives one bit both times that it is listed. The other one
is 0. -/
theorem rotated_measured_twice :
    rotated.globalState.Undecided 0 ∧
      ∃ bit after, Run.measureAll [⟨0⟩, ⟨1⟩, ⟨0⟩] (rotated.withDraws (.ofSeed 7)) =
        .ok [bit, false, bit] after := by
  have arises : rotated.Arises :=
    .performed (.performed (.performed (.performed
      (.seeded (.started (fun _ => none) "plugins" "dumps" 7) 7) _) _) _) _
  obtain ⟨first, _, firstFound, turned, state⟩ := rotated_partition
  have firstStored : first.state.Stores (BasisState.zero.flip 0) := by
    rw [state]
    exact ⟨_, (Amplitudes.get_entries_iff (evenly_distinct (by decide)) _ _).2
      List.mem_cons_self⟩
  obtain ⟨second, secondFound, listed⟩ := Option.map_eq_some_iff.1 flipped_entries.2
  have secondThere : rotated.arena.partitions[1]? = some second := by
    rw [turned, Arena.partition_with_state, if_neg (by decide), secondFound]
  have secondStored (index : BasisState) : second.state.Stores index ↔ index = .zero := by
    rw [stores_iff_mem_keys, keys, listed]
    simp
  have size : rotated.arena.partitions.size = 2 := by decide +kernel
  have inhabited : rotated.arena.Inhabited := by
    intro place partition _ found
    match place with
    | 0 =>
        cases found.symm.trans firstFound
        exact ⟨_, firstStored⟩
    | 1 =>
        cases found.symm.trans secondThere
        exact ⟨_, (secondStored .zero).2 rfl⟩
    | place + 2 =>
        have bound := (Array.getElem?_eq_some_iff.1 found).1
        omega
  have allocated : ∀ qubit ∈ [(⟨0⟩ : QubitId), ⟨1⟩, ⟨0⟩],
      ∃ slot, rotated.allocation[qubit]? = some slot := by
    intro qubit member
    simp only [List.mem_cons, List.not_mem_nil, or_false] at member
    rcases member with rfl | rfl | rfl
    · exact ⟨0, by decide +kernel⟩
    · exact ⟨1, by decide +kernel⟩
    · exact ⟨0, by decide +kernel⟩
  obtain ⟨bits, after, done, length, ⟨choice, stored, agrees⟩, _, _, _, once, _⟩ :=
    measured_bits_possible arises (reachable_zero_free rotated_reachable) inhabited allocated
      (.ofSeed 7)
  have secondChoice : choice 1 = .zero :=
    (secondStored _).1 (stored 1 second (by decide +kernel) secondThere)
  match bits, length with
  | [one, two, three], _ =>
      have bitTwo := agrees ⟨1⟩ two 1 1 (by simp) (by decide +kernel) (by decide +kernel)
      have same : three = one := once ⟨0⟩ one three (by simp) (by simp)
      rw [secondChoice, BasisState.is_one_zero] at bitTwo
      exact ⟨rotated_undecided, one, after, by rw [done, ← bitTwo, same]⟩

end Simulator

end SparseQuantum
