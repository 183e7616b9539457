import Mathlib
import SparseQuantum.Proofs.GlobalState
import SparseQuantum.Proofs.RenamedSimulators

/-!
# Bijections between slots in use

Two simulators are renamed by a bijection between their slots in use when they agree in all that a
caller can read, and in slots and partitions up to the bijection. Which slots are free and where the
partitions stand is left open. Slots that are not in use do not matter, so the bijection can be
extended to a permutation of all slots, and the simulators match by it.
-/

namespace SparseQuantum

set_option autoImplicit false

variable {R : Type}

/-! ### Renaming by a function -/

namespace BasisState

def rename (index : BasisState) (pi : Nat → Nat) : BasisState := ofOnes (index.ones.map pi)

theorem is_one_rename_iff (index : BasisState) (pi : Nat → Nat) (position : Nat) :
    (index.rename pi).isOne position = true ↔
      (∃ origin, index.isOne origin = true ∧ pi origin = position) ∧ position < width := by
  rw [rename, ofOnes, is_one_foldl_set, is_one_zero, Bool.false_or, decide_eq_true_eq,
    List.mem_map]
  refine and_congr_left fun _ => exists_congr fun origin => and_congr_left fun _ => ?_
  rw [ones, List.mem_filter, List.mem_range]
  exact ⟨And.right, fun one => ⟨lt_width_of_is_one one, one⟩⟩

/-- On the positions that can be 1, a function renames as a permutation that agrees with it. -/
theorem rename_eq_permute {sigma : Equiv.Perm Nat} (rearranges : Rearranges sigma)
    {pi : Nat → Nat} {positions : List Nat}
    (same : ∀ position ∈ positions, sigma position = pi position) {index : BasisState}
    (inside : index.Inside positions) : index.rename pi = index.permute sigma := by
  apply ext_is_one
  intro position below
  rw [Bool.eq_iff_iff, is_one_rename_iff, is_one_permute rearranges]
  constructor
  · rintro ⟨⟨origin, one, moved⟩, _⟩
    rw [← moved, ← same origin (inside origin one), sigma.symm_apply_apply]
    exact one
  · intro one
    refine ⟨⟨_, one, ?_⟩, below⟩
    rw [← same _ (inside _ one), sigma.apply_symm_apply]

end BasisState

/-- A bijection between two sets of positions is part of a permutation of all positions. -/
theorem exists_rearranges {pi : Nat → Nat} {slots images : Set Nat}
    (bijection : Set.BijOn pi slots images) (inside : ∀ slot ∈ slots, slot < width)
    (imagesInside : ∀ slot ∈ images, slot < width) :
    ∃ sigma : Equiv.Perm Nat, BasisState.Rearranges sigma ∧
      ∀ slot ∈ slots, sigma slot = pi slot := by
  classical
  let forth : {slot : Fin width // slot.val ∈ slots} → {slot : Fin width // slot.val ∈ images} :=
    fun slot => ⟨⟨pi slot.1.val, imagesInside _ (bijection.mapsTo slot.2)⟩,
      bijection.mapsTo slot.2⟩
  have oneToOne : Function.Bijective forth := by
    constructor
    · intro first second same
      have images : pi first.1.val = pi second.1.val :=
        congrArg (fun slot => slot.1.val) same
      exact Subtype.ext (Fin.ext (bijection.injOn first.2 second.2 images))
    · rintro ⟨image, member⟩
      obtain ⟨origin, isSlot, same⟩ := bijection.surjOn member
      exact ⟨⟨⟨origin, inside origin isSlot⟩, isSlot⟩, Subtype.ext (Fin.ext same)⟩
  let within : Equiv.Perm (Fin width) := (Equiv.ofBijective forth oneToOne).extendSubtype
  refine ⟨within.extendDomain Fin.equivSubtype, ?_, ?_⟩
  · intro position outside
    exact Equiv.Perm.extendDomain_apply_not_subtype _ _ (Nat.not_lt.2 outside)
  · intro slot isSlot
    rw [Equiv.Perm.extendDomain_apply_subtype within Fin.equivSubtype (inside slot isSlot)]
    exact congrArg Fin.val
      (Equiv.extendSubtype_apply_of_mem _ (⟨slot, inside slot isSlot⟩ : Fin width) isSlot)

namespace Partition

/-- The same partition but for the names of its slots: the members as `pi` takes them, in order, and
the same amplitudes, at basis states renamed by `pi`. -/
structure RenamedBy (pi : Nat → Nat) (left right : Partition R) : Prop where
  members : right.members = left.members.map pi
  amplitudes : ∀ index amplitude, right.state.get? index = some amplitude ↔
    ∃ origin, left.state.get? origin = some amplitude ∧ origin.rename pi = index

theorem renamed_by_iff {sigma : Equiv.Perm Nat} (rearranges : BasisState.Rearranges sigma)
    {pi : Nat → Nat} {left right : Partition R} (isLocal : left.Local)
    (same : ∀ slot ∈ left.members, sigma slot = pi slot) :
    RenamedBy pi left right ↔ right = left.rename sigma := by
  have amplitudes (index : BasisState) (amplitude : Amplitude R) :
      (left.state.permute sigma).get? index = some amplitude ↔
        ∃ origin, left.state.get? origin = some amplitude ∧ origin.rename pi = index := by
    constructor
    · intro found
      rw [SparseState.get_permute rearranges] at found
      refine ⟨_, found, ?_⟩
      rw [BasisState.rename_eq_permute rearranges same (isLocal _ ⟨amplitude, found⟩),
        BasisState.permute_symm_permute rearranges]
    · rintro ⟨origin, found, moved⟩
      rw [← moved, BasisState.rename_eq_permute rearranges same (isLocal _ ⟨amplitude, found⟩),
        SparseState.get_permute_apply rearranges, found]
  have members : left.members.map sigma = left.members.map pi := List.map_congr_left same
  constructor
  · intro renamed
    have state : right.state = left.state.permute sigma := by
      apply SparseState.ext_get
      intro index
      apply Option.ext
      intro amplitude
      rw [renamed.amplitudes, amplitudes]
    rw [rename, members, ← renamed.members, ← state]
  · intro renamed
    rw [renamed]
    exact ⟨members, amplitudes⟩

theorem forall_renamed_by_iff {sigma : Equiv.Perm Nat} (rearranges : BasisState.Rearranges sigma)
    {pi : Nat → Nat} {partitions : List (Partition R)}
    (each : ∀ partition ∈ partitions, partition.Local ∧
      ∀ slot ∈ partition.members, sigma slot = pi slot) (others : List (Partition R)) :
    List.Forall₂ (RenamedBy pi) partitions others ↔ others = partitions.map (·.rename sigma) := by
  induction partitions generalizing others with
  | nil => rw [List.forall₂_nil_left_iff, List.map_nil]
  | cons partition rest induction =>
      obtain ⟨isLocal, same⟩ := each partition List.mem_cons_self
      have remaining := induction fun other member => each other (List.mem_cons_of_mem _ member)
      simp only [List.forall₂_cons_left_iff, renamed_by_iff rearranges isLocal same, remaining,
        List.map_cons]
      constructor
      · rintro ⟨_, _, rfl, rfl, rfl⟩
        rfl
      · intro all
        exact ⟨_, _, rfl, rfl, all⟩

end Partition

namespace Arena

variable [Scalar R]

section WellFormed

variable {arena : Arena R} (wellFormed : arena.WellFormed)

include wellFormed

theorem mem_in_use_iff_partition_of {partition : Partition R} :
    partition ∈ arena.inUse ↔ ∃ slot, arena.partitionOf? slot = some partition := by
  rw [mem_in_use_iff]
  constructor
  · rintro ⟨place, used, found⟩
    obtain ⟨slot, member⟩ :=
      List.exists_mem_of_ne_nil _ (wellFormed.members_exist place partition found used)
    exact ⟨slot, partition_of_member wellFormed found member⟩
  · rintro ⟨slot, standing⟩
    obtain ⟨place, found, member⟩ := (partition_of_eq_some_iff wellFormed).1 standing
    exact ⟨place, wellFormed.used_of_owner (wellFormed.owner_of_member found member), found⟩

theorem partition_of_in_use {partition : Partition R} (inUse : partition ∈ arena.inUse) {slot : Nat}
    (member : slot ∈ partition.members) : arena.partitionOf? slot = some partition := by
  obtain ⟨place, _, found⟩ := mem_in_use_iff.1 inUse
  exact partition_of_member wellFormed found member

theorem in_use_distinct : arena.inUse.Nodup := by
  refine (in_use_disjoint wellFormed).imp_of_mem fun {left right} inUse _ disjoint same => ?_
  obtain ⟨place, used, found⟩ := mem_in_use_iff.1 inUse
  obtain ⟨slot, member⟩ :=
    List.exists_mem_of_ne_nil _ (wellFormed.members_exist place left found used)
  rw [← same] at disjoint
  exact disjoint member member

end WellFormed

/-- Slot by slot the partitions correspond just when they do so one to one. -/
theorem renames_iff_perm {left right : Arena R} (leftFormed : left.WellFormed)
    (rightFormed : right.WellFormed) {sigma : Equiv.Perm Nat}
    (rearranges : BasisState.Rearranges sigma) :
    Renames sigma left right ↔ (left.inUse.map (·.rename sigma)).Perm right.inUse := by
  constructor
  · intro renames
    have back : Function.LeftInverse (fun partition : Partition R => partition.rename sigma.symm)
        fun partition => partition.rename sigma := Partition.rename_symm_rename rearranges
    rw [List.perm_ext_iff_of_nodup ((in_use_distinct leftFormed).map back.injective)
      (in_use_distinct rightFormed)]
    intro partition
    rw [List.mem_map, mem_in_use_iff_partition_of rightFormed]
    constructor
    · rintro ⟨source, inUse, same⟩
      obtain ⟨slot, standing⟩ := (mem_in_use_iff_partition_of leftFormed).1 inUse
      refine ⟨sigma slot, ?_⟩
      rw [renames slot, standing, ← same]
      rfl
    · rintro ⟨slot, standing⟩
      rw [← sigma.apply_symm_apply slot, renames, Option.map_eq_some_iff] at standing
      obtain ⟨source, found, same⟩ := standing
      exact ⟨source, (mem_in_use_iff_partition_of leftFormed).2 ⟨_, found⟩, same⟩
  · intro arranged slot
    apply Option.ext
    intro partition
    rw [Option.map_eq_some_iff]
    constructor
    · intro standing
      have inUse := (mem_in_use_iff_partition_of rightFormed).2 ⟨_, standing⟩
      obtain ⟨source, listed, same⟩ := List.mem_map.1 (arranged.mem_iff.2 inUse)
      obtain ⟨_, _, member⟩ := (partition_of_eq_some_iff rightFormed).1 standing
      rw [← same] at member
      have owned := Partition.mem_rename_iff.1 member
      exact ⟨source, partition_of_in_use leftFormed listed owned, same⟩
    · rintro ⟨source, standing, same⟩
      obtain ⟨_, _, member⟩ := (partition_of_eq_some_iff leftFormed).1 standing
      have listed := (mem_in_use_iff_partition_of leftFormed).2 ⟨_, standing⟩
      have inUse := arranged.mem_iff.1 (List.mem_map_of_mem listed)
      rw [← same]
      exact partition_of_in_use rightFormed inUse (Partition.mem_rename_iff.2 member)

end Arena

/-! ### Renamed simulators -/

namespace Simulator

open Arena

def ownedSlots (simulator : Simulator R) : Set Nat := {slot | simulator.arena.Owns slot}

variable [Scalar R]

/-- Two simulators that differ only in which slots are used: `pi` takes the slots in use of one to
those of the other. -/
structure Renamed (pi : Nat → Nat) (left right : Simulator R) : Prop where
  bijection : Set.BijOn pi left.ownedSlots right.ownedSlots
  allocation : ∀ qubit : QubitId, right.allocation[qubit]? = left.allocation[qubit]?.map pi
  parked : right.parkedSlots = left.parkedSlots.map pi
  partitions : ∃ matched : List (Partition R), matched.Perm right.arena.inUse ∧
    List.Forall₂ (Partition.RenamedBy pi) left.arena.inUse matched
  limit : right.maxQubits = left.maxQubits
  registers : right.registers = left.registers
  bits : right.bits = left.bits
  dumps : right.dumps = left.dumps
  draws : right.draws = left.draws

theorem owned_lt_width {simulator : Simulator R} (wellFormed : simulator.WellFormed) {slot : Nat}
    (owned : slot ∈ simulator.ownedSlots) : slot < width := by
  rcases (wellFormed.owns_iff slot).1 owned with allocated | parked
  · exact wellFormed.allocated_lt_width allocated
  · exact wellFormed.slot_lt_width ((wellFormed.issued_iff slot).2 (Or.inr (Or.inr parked)))

section Formed

variable {left right : Simulator R} (leftFormed : left.WellFormed) (rightFormed : right.WellFormed)
  (isLocal : left.arena.Local)

include leftFormed isLocal

theorem in_use_agrees {pi : Nat → Nat} {sigma : Equiv.Perm Nat}
    (same : ∀ slot ∈ left.ownedSlots, sigma slot = pi slot) :
    ∀ partition ∈ left.arena.inUse, partition.Local ∧
      ∀ slot ∈ partition.members, sigma slot = pi slot := by
  intro partition inUse
  obtain ⟨place, _, found⟩ := mem_in_use_iff.1 inUse
  exact ⟨isLocal place partition found, fun slot member =>
    same slot ⟨place, leftFormed.arena.owner_of_member found member⟩⟩

include rightFormed

/-- A bijection between the slots in use extends to a renaming of all slots. -/
theorem Renamed.matches {pi : Nat → Nat} (renamed : Renamed pi left right) :
    ∃ sigma : Equiv.Perm Nat, Matches sigma left right ∧
      ∀ slot ∈ left.ownedSlots, sigma slot = pi slot := by
  obtain ⟨sigma, rearranges, same⟩ := exists_rearranges renamed.bijection
    (fun _ owned => owned_lt_width leftFormed owned)
    (fun _ owned => owned_lt_width rightFormed owned)
  obtain ⟨matched, arranged, each⟩ := renamed.partitions
  rw [Partition.forall_renamed_by_iff rearranges (in_use_agrees leftFormed isLocal same)] at each
  rw [each] at arranged
  refine ⟨sigma, ⟨rearranges, ?_, ?_, ?_, renamed.limit, renamed.registers, renamed.bits,
    renamed.dumps, renamed.draws⟩, same⟩
  · exact (renames_iff_perm leftFormed.arena rightFormed.arena rearranges).2 arranged
  · intro qubit
    rw [renamed.allocation]
    cases found : left.allocation[qubit]? with
    | none => rfl
    | some slot =>
        rw [Option.map_some, Option.map_some,
          same slot (leftFormed.owned_of_allocated ⟨qubit, found⟩)]
  · rw [renamed.parked]
    exact List.map_congr_left fun slot member =>
      (same slot ((leftFormed.owns_iff slot).2 (Or.inr member))).symm

theorem Matches.renamed {sigma : Equiv.Perm Nat} (matching : Matches sigma left right) :
    Renamed sigma left right where
  bijection := by
    refine ⟨fun slot owned => (matching.owns_iff leftFormed rightFormed slot).2 owned,
      sigma.injective.injOn, fun slot owned => ⟨sigma.symm slot, ?_, sigma.apply_symm_apply slot⟩⟩
    change left.arena.Owns (sigma.symm slot)
    rw [← matching.owns_iff leftFormed rightFormed, sigma.apply_symm_apply]
    exact owned
  allocation := matching.allocation
  parked := matching.parked
  partitions := by
    refine ⟨_, (renames_iff_perm leftFormed.arena rightFormed.arena matching.rearranges).1
      matching.arena, ?_⟩
    rw [Partition.forall_renamed_by_iff matching.rearranges
      (in_use_agrees leftFormed isLocal fun _ _ => rfl)]
  limit := matching.limit
  registers := matching.registers
  bits := matching.bits
  dumps := matching.dumps
  draws := matching.draws

end Formed

end Simulator

end SparseQuantum
