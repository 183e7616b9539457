import Mathlib
import SparseQuantum.Proofs.GateAction
import SparseQuantum.Proofs.SupportLocality

/-!
# The state of all partitions together

The tensor product of all partitions in use gives a basis state the product of the amplitudes of its
parts: in each partition the part at the members. This holds as long as partitions are local, and
turns statements about the whole product into statements about one factor.
-/

namespace SparseQuantum

set_option autoImplicit false

variable {R : Type}

namespace Arena

def inUse [Scalar R] (arena : Arena R) : List (Partition R) :=
  (List.range arena.partitions.size).filterMap fun place =>
    if place ∈ arena.vacant then none else arena.partitions[place]?

end Arena

def tensorAll [Scalar R] (partitions : List (Partition R)) : SparseState R :=
  partitions.foldl (fun state partition => state.tensor partition.state) .ground

/-- The tensor product of the states of all partitions in use, as one state over all slots. -/
def Arena.whole [Scalar R] (arena : Arena R) : SparseState R := tensorAll arena.inUse

/-- The state of everything that the simulator holds, parked slots included. -/
def Simulator.globalState [Scalar R] (simulator : Simulator R) : SparseState R :=
  simulator.arena.whole

variable [ExactScalar R]

namespace SparseState

theorem value_of_get {state : SparseState R} {index : BasisState} {amplitude : Amplitude R}
    (found : state.get? index = some amplitude) : state.value index = amplitude := by
  rw [value, found, Option.getD_some]

theorem stores_of_value {state : SparseState R} {index : BasisState}
    (different : state.value index ≠ 0) : state.Stores index := by
  cases found : state.get? index with
  | some amplitude => exact ⟨amplitude, found⟩
  | none =>
      rw [value, found] at different
      exact absurd rfl different

theorem value_ground (index : BasisState) :
    (ground : SparseState R).value index = if index = .zero then 1 else 0 := by
  rw [value, get_ground]
  split_ifs <;> rfl

theorem value_tensor {left right : SparseState R} {positions others : List Nat}
    (leftInside : ∀ index, left.Stores index → index.Inside positions)
    (rightInside : ∀ index, right.Stores index → index.Inside others)
    (apart : List.Disjoint positions others) {index : BasisState}
    (inside : index.Inside (positions ++ others)) :
    (left.tensor right).value index =
      left.value (index.restrict positions) * right.value (index.restrict others) := by
  have disjoint : ∀ first second, left.Stores first → right.Stores second →
      first.isDisjoint second = true := fun first second leftStored rightStored =>
    BasisState.is_disjoint_of_inside (leftInside first leftStored)
      (rightInside second rightStored) apart
  cases found : (left.tensor right).get? index with
  | some amplitude =>
      rcases (get_tensor_iff disjoint index amplitude).1 found with
        ⟨first, second, leftAmplitude, rightAmplitude, leftFound, rightFound, joined, product⟩
      have firstInside := leftInside first ⟨leftAmplitude, leftFound⟩
      have secondInside := rightInside second ⟨rightAmplitude, rightFound⟩
      have leftPart : index.restrict positions = first := by
        rw [← joined]
        exact BasisState.restrict_union_left firstInside secondInside apart
      have rightPart : index.restrict others = second := by
        rw [← joined, BasisState.union_comm]
        exact BasisState.restrict_union_left secondInside firstInside apart.symm
      rw [value_of_get found, leftPart, rightPart, value_of_get leftFound,
        value_of_get rightFound, ← product]
      rfl
  | none =>
      have nothing : (left.tensor right).value index = 0 := by
        rw [value, found]
        rfl
      rw [nothing]
      by_contra different
      obtain ⟨_, leftFound⟩ := stores_of_value (left_ne_zero_of_mul (Ne.symm different))
      obtain ⟨_, rightFound⟩ := stores_of_value (right_ne_zero_of_mul (Ne.symm different))
      have whole : (index.restrict positions).union (index.restrict others) = index := by
        rw [← BasisState.restrict_append, BasisState.restrict_of_inside inside]
      have stored := (get_tensor_iff disjoint index _).2
        ⟨_, _, _, _, leftFound, rightFound, whole, rfl⟩
      rw [found] at stored
      exact absurd stored (by simp)

end SparseState

/-! ### Products of amplitudes -/

def membersOf (partitions : List (Partition R)) : List Nat :=
  partitions.flatMap fun partition => partition.members

/-- What all of some partitions give a basis state, each the amplitude of its part. -/
def amplitudeOf (partitions : List (Partition R)) (index : BasisState) : Amplitude R :=
  (partitions.map fun partition => partition.state.value (index.restrict partition.members)).prod

section Product

variable {partitions : List (Partition R)} {start : SparseState R} {seen : List Nat}
  (isLocal : ∀ partition ∈ partitions, partition.Local)
  (startInside : ∀ index, start.Stores index → index.Inside seen)

include isLocal startInside

omit [ExactScalar R] in
theorem inside_of_foldl_tensor [Scalar R] {index : BasisState}
    (stored : (partitions.foldl (fun state partition => state.tensor partition.state)
      start).Stores index) : index.Inside (seen ++ membersOf partitions) := by
  induction partitions generalizing start seen with
  | nil =>
      rw [membersOf, List.flatMap_nil, List.append_nil]
      exact startInside index stored
  | cons partition rest induction =>
      rw [membersOf, List.flatMap_cons, ← List.append_assoc]
      apply induction (fun other member => isLocal other (List.mem_cons_of_mem _ member)) _ stored
      intro joined joinedStored
      obtain ⟨first, second, firstStored, secondStored, same⟩ :=
        SparseState.stores_tensor joinedStored
      rw [same]
      exact BasisState.inside_union (startInside first firstStored)
        (isLocal partition List.mem_cons_self second secondStored)

/-- The induction is on the partitions still to come; those before are `start`, inside `seen`. -/
theorem value_foldl_tensor (fresh : List.Disjoint seen (membersOf partitions))
    (apart : partitions.Pairwise fun left right => List.Disjoint left.members right.members)
    {index : BasisState} (inside : index.Inside (seen ++ membersOf partitions)) :
    (partitions.foldl (fun state partition => state.tensor partition.state) start).value index =
      start.value (index.restrict seen) * amplitudeOf partitions index := by
  induction partitions generalizing start seen with
  | nil =>
      rw [membersOf, List.flatMap_nil, List.append_nil] at inside
      rw [BasisState.restrict_of_inside inside, amplitudeOf, List.map_nil, List.prod_nil, mul_one]
      rfl
  | cons partition rest induction =>
      obtain ⟨different, restApart⟩ := List.pairwise_cons.1 apart
      rw [membersOf, List.flatMap_cons] at fresh inside
      obtain ⟨here, later⟩ := List.disjoint_append_right.1 fresh
      have partLocal := isLocal partition List.mem_cons_self
      have joinedInside : ∀ joined, (start.tensor partition.state).Stores joined →
          joined.Inside (seen ++ partition.members) := by
        intro joined stored
        obtain ⟨first, second, firstStored, secondStored, same⟩ := SparseState.stores_tensor stored
        rw [same]
        exact BasisState.inside_union (startInside first firstStored)
          (partLocal second secondStored)
      have restFresh : List.Disjoint (seen ++ partition.members) (membersOf rest) := by
        rw [List.disjoint_append_left]
        refine ⟨later, ?_⟩
        intro slot member elsewhere
        obtain ⟨other, source, held⟩ := List.mem_flatMap.1 elsewhere
        exact different other source member held
      rw [← List.append_assoc] at inside
      rw [List.foldl_cons, induction (fun other member => isLocal other
        (List.mem_cons_of_mem _ member)) joinedInside restFresh restApart inside]
      rw [SparseState.value_tensor startInside partLocal here (BasisState.inside_restrict _ _),
        BasisState.restrict_restrict (List.subset_append_left _ _),
        BasisState.restrict_restrict (List.subset_append_right _ _), amplitudeOf, amplitudeOf,
        List.map_cons, List.prod_cons, mul_assoc]

end Product

theorem value_tensor_all {partitions : List (Partition R)}
    (isLocal : ∀ partition ∈ partitions, partition.Local)
    (apart : partitions.Pairwise fun left right => List.Disjoint left.members right.members)
    {index : BasisState} (inside : index.Inside (membersOf partitions)) :
    (tensorAll partitions).value index = amplitudeOf partitions index := by
  have start : ∀ index, (SparseState.ground : SparseState R).Stores index → index.Inside [] :=
    Partition.ground_local []
  have product := value_foldl_tensor isLocal start (List.disjoint_nil_left _) apart
    (by rw [List.nil_append]; exact inside)
  rw [BasisState.restrict_nil, SparseState.value_ground, if_pos rfl, one_mul] at product
  exact product

theorem value_tensor_all_outside {partitions : List (Partition R)}
    (isLocal : ∀ partition ∈ partitions, partition.Local) {index : BasisState}
    (outside : ¬index.Inside (membersOf partitions)) : (tensorAll partitions).value index = 0 := by
  by_contra different
  have start : ∀ index, (SparseState.ground : SparseState R).Stores index → index.Inside [] :=
    Partition.ground_local []
  apply outside
  have inside := inside_of_foldl_tensor isLocal start (SparseState.stores_of_value different)
  rw [List.nil_append] at inside
  exact inside

/-! ### Products over places -/

namespace Arena

/-- What the partition at a place gives a basis state; nothing stands in the way at other places. -/
def factor (arena : Arena R) (index : BasisState) (place : Nat) : Amplitude R :=
  match arena.partitions[place]? with
  | some partition => partition.state.value (index.restrict partition.members)
  | none => 1

theorem factor_of_found {arena : Arena R} {place : Nat} {partition : Partition R}
    (found : arena.partitions[place]? = some partition) (index : BasisState) :
    arena.factor index place = partition.state.value (index.restrict partition.members) := by
  rw [factor, found]

theorem factor_of_cleared {arena : Arena R} {place : Nat}
    (cleared : arena.partitions[place]? = some .vacant ∨ arena.partitions[place]? = none)
    (index : BasisState) : arena.factor index place = 1 := by
  rcases cleared with vacant | nothing
  · rw [factor_of_found vacant, Partition.vacant, BasisState.restrict_nil,
      SparseState.value_ground, if_pos rfl]
  · rw [factor, nothing]

def amplitude (arena : Arena R) (index : BasisState) : Amplitude R :=
  ∏ place ∈ Finset.range arena.partitions.size, arena.factor index place

/-- Places that do not exist give nothing. -/
theorem prod_factor_eq {arena : Arena R} {bound : Nat} (large : arena.partitions.size ≤ bound)
    (index : BasisState) :
    ∏ place ∈ Finset.range bound, arena.factor index place = arena.amplitude index := by
  symm
  apply Finset.prod_subset (Finset.range_subset_range.2 large)
  intro place _ outside
  have beyond : arena.partitions.size ≤ place := by
    rw [Finset.mem_range] at outside
    omega
  exact factor_of_cleared (Or.inr (Array.getElem?_eq_none beyond)) index

def Covers (arena : Arena R) (index : BasisState) : Prop :=
  ∀ position, index.isOne position = true → arena.Owns position

omit [ExactScalar R] in
theorem mem_in_use_iff [Scalar R] {arena : Arena R} {partition : Partition R} :
    partition ∈ arena.inUse ↔
      ∃ place, place ∉ arena.vacant ∧ arena.partitions[place]? = some partition := by
  rw [inUse, List.mem_filterMap]
  constructor
  · rintro ⟨place, _, found⟩
    split_ifs at found with vacant
    exact ⟨place, vacant, found⟩
  · rintro ⟨place, used, found⟩
    refine ⟨place, List.mem_range.2 (Array.getElem?_eq_some_iff.1 found).1, ?_⟩
    rw [if_neg used]
    exact found

section Members

omit [ExactScalar R]

variable [Scalar R] {arena : Arena R} (wellFormed : arena.WellFormed)

include wellFormed

theorem in_use_disjoint :
    arena.inUse.Pairwise fun left right => List.Disjoint left.members right.members := by
  rw [inUse, List.pairwise_filterMap]
  refine List.nodup_range.imp ?_
  intro first second different left leftFound right rightFound
  split_ifs at leftFound rightFound
  exact wellFormed.members_disjoint leftFound rightFound different

theorem mem_members_in_use (slot : Nat) : slot ∈ membersOf arena.inUse ↔ arena.Owns slot := by
  rw [membersOf, List.mem_flatMap]
  constructor
  · rintro ⟨partition, inUse, member⟩
    obtain ⟨place, _, found⟩ := mem_in_use_iff.1 inUse
    exact ⟨place, wellFormed.owner_of_member found member⟩
  · rintro ⟨place, owner⟩
    obtain ⟨partition, found, member, used⟩ := wellFormed.partition_of_owner owner
    exact ⟨partition, mem_in_use_iff.2 ⟨place, used, found⟩, member⟩

end Members

section InUse

variable {arena : Arena R} (wellFormed : arena.WellFormed)

include wellFormed

theorem amplitude_of_in_use (index : BasisState) :
    amplitudeOf arena.inUse index = arena.amplitude index := by
  have vacantFactor : ∀ place ∈ arena.vacant, arena.factor index place = 1 :=
    fun place member => factor_of_cleared (Or.inl (wellFormed.vacant_cleared place member)) index
  have each (places : List Nat) :
      amplitudeOf (places.filterMap fun place =>
        if place ∈ arena.vacant then none else arena.partitions[place]?) index =
        (places.map (arena.factor index)).prod := by
    induction places with
    | nil => rfl
    | cons place rest induction =>
        rw [List.map_cons, List.prod_cons, ← induction, List.filterMap_cons]
        by_cases vacant : place ∈ arena.vacant
        · rw [if_pos vacant, vacantFactor place vacant, one_mul]
        · rw [if_neg vacant]
          cases found : arena.partitions[place]? with
          | none => rw [factor_of_cleared (Or.inr found), one_mul]
          | some partition =>
              rw [factor_of_found found, amplitudeOf, List.map_cons, List.prod_cons]
              rfl
  rw [inUse, each, ← Multiset.prod_coe]
  rfl

variable (isLocal : arena.Local)

include isLocal

theorem value_of_covers {index : BasisState} (covers : arena.Covers index) :
    arena.whole.value index = arena.amplitude index := by
  rw [← amplitude_of_in_use wellFormed]
  apply value_tensor_all
  · intro partition inUse
    obtain ⟨place, _, found⟩ := mem_in_use_iff.1 inUse
    exact isLocal place partition found
  · exact in_use_disjoint wellFormed
  · exact fun position one => (mem_members_in_use wellFormed position).2 (covers position one)

theorem value_of_not_covers {index : BasisState} (outside : ¬arena.Covers index) :
    arena.whole.value index = 0 := by
  apply value_tensor_all_outside
  · intro partition inUse
    obtain ⟨place, _, found⟩ := mem_in_use_iff.1 inUse
    exact isLocal place partition found
  · exact fun inside => outside fun position one =>
      (mem_members_in_use wellFormed position).1 (inside position one)

end InUse

end Arena

end SparseQuantum
