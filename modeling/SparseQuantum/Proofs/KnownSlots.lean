import Mathlib
import SparseQuantum.Proofs.ProductAmplitudes

/-!
# Known slots and joined partitions

A slot is settled when all basis states that its partition stores agree on it; a known slot is, and
it stays settled however partitions are joined. It need not stay known, since its partition may be
joined with one of several basis states. But joining makes no slot known that was not: a product has
a single basis state only if its factors have.
-/

namespace SparseQuantum

set_option autoImplicit false

variable {R : Type} [Scalar R]

namespace SparseState

omit [Scalar R] in
theorem entries_of_only {state : SparseState R} {index : BasisState} {amplitude : Amplitude R}
    (found : state.get? index = some amplitude)
    (only : ∀ other, state.Stores other → other = index) :
    state.entries = [(index, amplitude)] := by
  have distinct : state.entries.Nodup :=
    state.entries_distinct.imp fun different same => different (congrArg Prod.fst same)
  rw [← List.perm_singleton, List.perm_ext_iff_of_nodup distinct (List.nodup_singleton _)]
  rintro ⟨other, value⟩
  rw [mem_entries_iff, List.mem_singleton, Prod.mk.injEq]
  constructor
  · intro stored
    have same := only other ⟨value, stored⟩
    rw [same, found, Option.some.injEq] at stored
    exact ⟨same, stored.symm⟩
  · rintro ⟨same, value_eq⟩
    rw [same, value_eq, found]

omit [Scalar R] in
theorem only_of_entries {state : SparseState R} {index : BasisState} {amplitude : Amplitude R}
    (entries : state.entries = [(index, amplitude)]) :
    state.get? index = some amplitude ∧ ∀ other, state.Stores other → other = index := by
  have listed (other : BasisState) (value : Amplitude R) :
      state.get? other = some value ↔ other = index ∧ value = amplitude := by
    rw [← mem_entries_iff, entries, List.mem_singleton, Prod.mk.injEq]
  exact ⟨(listed index amplitude).2 ⟨rfl, rfl⟩,
    fun other ⟨value, found⟩ => ((listed other value).1 found).1⟩

/-- A product with a single basis state has factors with one each. -/
theorem only_factors {left right : SparseState R}
    (apart : ∀ first second, left.Stores first → right.Stores second →
      first.isDisjoint second = true) {index : BasisState} {amplitude : Amplitude R}
    (entries : (left.tensor right).entries = [(index, amplitude)]) :
    ∃ first second leftAmplitude rightAmplitude, left.entries = [(first, leftAmplitude)] ∧
      right.entries = [(second, rightAmplitude)] ∧ first.union second = index := by
  obtain ⟨found, only⟩ := only_of_entries entries
  obtain ⟨first, second, leftAmplitude, rightAmplitude, leftFound, rightFound, joined, _⟩ :=
    (get_tensor_iff apart index amplitude).1 found
  have unique {first' second' : BasisState} (leftStored : left.Stores first')
      (rightStored : right.Stores second') : first' = first ∧ second' = second := by
    obtain ⟨one, oneFound⟩ := leftStored
    obtain ⟨other, otherFound⟩ := rightStored
    have stored : (left.tensor right).Stores (first'.union second') :=
      ⟨_, (get_tensor_iff apart _ _).2 ⟨_, _, _, _, oneFound, otherFound, rfl, rfl⟩⟩
    exact BasisState.eq_of_same_union ((only _ stored).trans joined.symm)
      (apart _ _ ⟨one, oneFound⟩ ⟨rightAmplitude, rightFound⟩)
      (apart _ _ ⟨leftAmplitude, leftFound⟩ ⟨other, otherFound⟩)
  exact ⟨first, second, leftAmplitude, rightAmplitude,
    entries_of_only leftFound fun _ stored => (unique stored ⟨_, rightFound⟩).1,
    entries_of_only rightFound fun _ stored => (unique ⟨_, leftFound⟩ stored).2, joined⟩

end SparseState

namespace Arena

/-- All basis states that the slot's partition stores have the same value there. -/
def Settled (arena : Arena R) (slot : Nat) (value : Bool) : Prop :=
  ∀ (place : Nat) (partition : Partition R), arena.owner? slot = some place →
    arena.partitions[place]? = some partition →
    ∀ index, partition.state.Stores index → index.isOne slot = value

omit [Scalar R] in
theorem settled_of_known {arena : Arena R} {slot : Nat} {value : Bool}
    (known : arena.known? slot = some value) : arena.Settled slot value := by
  obtain ⟨place, partition, only, amplitude, owner, found, entries, bit⟩ :=
    (known_eq_some_iff arena slot value).1 known
  intro place' partition' owner' found' index stored
  cases owner.symm.trans owner'
  cases found.symm.trans found'
  rw [(SparseState.only_of_entries entries).2 index stored, bit]

omit [Scalar R] in
theorem get_of_settled {arena : Arena R} {slot place : Nat} {value : Bool} {partition : Partition R}
    (settled : arena.Settled slot value) (owner : arena.owner? slot = some place)
    (found : arena.partitions[place]? = some partition) {index : BasisState}
    (different : index.isOne slot ≠ value) : partition.state.get? index = none := by
  rw [Option.eq_none_iff_forall_ne_some]
  intro amplitude stored
  exact different (settled place partition owner found index ⟨amplitude, stored⟩)

theorem get_whole_of_settled {arena : Arena R} (wellFormed : arena.WellFormed)
    (isLocal : arena.Local) {slot : Nat} (owned : arena.Owns slot) {value : Bool}
    (settled : arena.Settled slot value) {index : BasisState}
    (different : index.isOne slot ≠ value) : arena.whole.get? index = none := by
  obtain ⟨place, owner⟩ := owned
  obtain ⟨partition, found, member, used⟩ := wellFormed.partition_of_owner owner
  apply get_whole_of_missing wellFormed isLocal used found
  apply get_of_settled settled owner found
  rw [BasisState.is_one_restrict, decide_eq_true member, Bool.and_true]
  exact different

/-- The partition that owns a slot after a join is the joined one, or owned it before. -/
theorem owned_after_joins {arena after : Arena R} {survivor absorbed : Nat}
    {target taken : Partition R} (wellFormed : arena.WellFormed)
    (joins : Joins arena after survivor absorbed target taken) {slot place : Nat}
    {partition : Partition R} (owner : after.owner? slot = some place)
    (found : after.partitions[place]? = some partition) :
    (place = survivor ∧ partition = both target taken ∧
      (slot ∈ target.members ∨ slot ∈ taken.members)) ∨
    (place ≠ survivor ∧ arena.owner? slot = some place ∧
      arena.partitions[place]? = some partition) := by
  have member := (joins_well_formed wellFormed joins).member_of_owner owner found
  rw [joins.owners] at owner
  rw [joins.partitions] at found
  by_cases here : place = survivor
  · rw [if_pos here, Option.some.injEq] at found
    rw [← found] at member
    exact Or.inl ⟨here, found.symm, List.mem_append.1 member⟩
  · rw [if_neg here] at found
    by_cases moved : slot ∈ taken.members
    · rw [if_pos moved, Option.some.injEq] at owner
      exact absurd owner.symm here
    · rw [if_neg moved] at owner
      have notAbsorbed : place ≠ absorbed := by
        intro there
        rw [there] at owner
        exact moved (wellFormed.member_of_owner owner joins.taken_found)
      rw [if_neg notAbsorbed] at found
      exact Or.inr ⟨here, owner, found⟩

section Joins

variable {arena after : Arena R} {survivor absorbed : Nat} {target taken : Partition R}
  (wellFormed : arena.WellFormed) (isLocal : arena.Local)
  (joins : Joins arena after survivor absorbed target taken)

include wellFormed isLocal joins

/-- In a joined basis state each slot has its value in the factor that it comes from. -/
theorem is_one_union_of_joins {first second : BasisState} (firstStored : target.state.Stores first)
    (secondStored : taken.state.Stores second) :
    (∀ slot ∈ target.members, (first.union second).isOne slot = first.isOne slot) ∧
      ∀ slot ∈ taken.members, (first.union second).isOne slot = second.isOne slot := by
  have apart := wellFormed.members_disjoint joins.target_found joins.taken_found joins.different
  have targetLocal := isLocal survivor target joins.target_found first firstStored
  have takenLocal := isLocal absorbed taken joins.taken_found second secondStored
  constructor
  · intro slot member
    have clear : second.isOne slot = false :=
      Bool.eq_false_iff.2 fun one => apart member (takenLocal slot one)
    rw [BasisState.is_one_union, clear, Bool.or_false]
  · intro slot member
    have clear : first.isOne slot = false :=
      Bool.eq_false_iff.2 fun one => apart (targetLocal slot one) member
    rw [BasisState.is_one_union, clear, Bool.false_or]

theorem settled_of_joins {slot : Nat} {value : Bool} (settled : arena.Settled slot value) :
    after.Settled slot value := by
  intro place partition owner found index stored
  rcases owned_after_joins wellFormed joins owner found with
    ⟨_, joined, member⟩ | ⟨_, before, stood⟩
  · rw [joined] at stored
    obtain ⟨first, second, firstStored, secondStored, same⟩ := SparseState.stores_tensor stored
    obtain ⟨fromTarget, fromTaken⟩ :=
      is_one_union_of_joins wellFormed isLocal joins firstStored secondStored
    rw [same]
    rcases member with inTarget | inTaken
    · rw [fromTarget slot inTarget]
      exact settled survivor target (wellFormed.owner_of_member joins.target_found inTarget)
        joins.target_found first firstStored
    · rw [fromTaken slot inTaken]
      exact settled absorbed taken (wellFormed.owner_of_member joins.taken_found inTaken)
        joins.taken_found second secondStored
  · exact settled place partition before stood index stored

theorem known_of_joins {slot : Nat} {value : Bool} (known : after.known? slot = some value) :
    arena.known? slot = some value := by
  obtain ⟨place, partition, index, amplitude, owner, found, entries, bit⟩ :=
    (known_eq_some_iff after slot value).1 known
  rw [known_eq_some_iff]
  rcases owned_after_joins wellFormed joins owner found with
    ⟨_, joined, member⟩ | ⟨_, before, stood⟩
  · rw [joined] at entries
    have disjoint : ∀ first second, target.state.Stores first → taken.state.Stores second →
        first.isDisjoint second = true := fun first second =>
      Partition.disjoint_of_local (isLocal survivor target joins.target_found)
        (isLocal absorbed taken joins.taken_found)
        (wellFormed.members_disjoint joins.target_found joins.taken_found joins.different)
    obtain ⟨first, second, leftAmplitude, rightAmplitude, leftEntries, rightEntries, union⟩ :=
      SparseState.only_factors disjoint entries
    obtain ⟨fromTarget, fromTaken⟩ := is_one_union_of_joins wellFormed isLocal joins
      ⟨leftAmplitude, (SparseState.only_of_entries leftEntries).1⟩
      ⟨rightAmplitude, (SparseState.only_of_entries rightEntries).1⟩
    rw [union] at fromTarget fromTaken
    rcases member with inTarget | inTaken
    · exact ⟨survivor, target, first, leftAmplitude,
        wellFormed.owner_of_member joins.target_found inTarget, joins.target_found, leftEntries,
        (fromTarget slot inTarget).symm.trans bit⟩
    · exact ⟨absorbed, taken, second, rightAmplitude,
        wellFormed.owner_of_member joins.taken_found inTaken, joins.taken_found, rightEntries,
        (fromTaken slot inTaken).symm.trans bit⟩
  · exact ⟨place, partition, index, amplitude, before, stood, entries, bit⟩

end Joins

section Merges

variable {arena merged : Arena R} {survivor : Nat} (merges : Merges survivor arena merged)

include merges

theorem owned_elsewhere {slot place : Nat} {partition : Partition R}
    (owner : merged.owner? slot = some place) (found : merged.partitions[place]? = some partition)
    (elsewhere : place ≠ survivor) :
    arena.owner? slot = some place ∧ arena.partitions[place]? = some partition := by
  induction merges with
  | done => exact ⟨owner, found⟩
  | join wellFormed joins _ induction =>
      obtain ⟨laterOwner, laterFound⟩ := induction owner found
      rcases owned_after_joins wellFormed joins laterOwner laterFound with
        ⟨here, _⟩ | ⟨_, before, stood⟩
      · exact absurd here elsewhere
      · exact ⟨before, stood⟩

theorem settled_of_merges (isLocal : arena.Local) {slot : Nat} {value : Bool}
    (settled : arena.Settled slot value) : merged.Settled slot value := by
  induction merges with
  | done => exact settled
  | join wellFormed joins _ induction =>
      exact induction (joins_local isLocal joins)
        (settled_of_joins wellFormed isLocal joins settled)

theorem known_of_merges (isLocal : arena.Local) {slot : Nat} {value : Bool}
    (known : merged.known? slot = some value) : arena.known? slot = some value := by
  induction merges with
  | done => exact known
  | join wellFormed joins _ induction =>
      exact known_of_joins wellFormed isLocal joins (induction (joins_local isLocal joins) known)

end Merges

end Arena

end SparseQuantum
