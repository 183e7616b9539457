import Mathlib
import SparseQuantum.Proofs.Branches
import SparseQuantum.Proofs.GlobalState

/-!
# Probabilities in a product

The probability that a product of states gives to what one factor decides is that of the factor,
times the total probabilities of the others. So with total probabilities of 1 a partition alone
tells how probable the outcomes of a measurement on the whole product are.
-/

namespace SparseQuantum

set_option autoImplicit false

variable {R : Type} [ExactScalar R]

namespace Amplitudes

theorem weight_append (first second : List (BasisState × Amplitude R)) (pick : BasisState → Bool) :
    weight (first ++ second) pick = weight first pick + weight second pick := by
  unfold weight
  rw [List.filter_append, List.map_append, List.sum_append]

theorem weight_paired (first : BasisState × Amplitude R)
    {others : List (BasisState × Amplitude R)} {pick left right : BasisState → Bool}
    (decides : ∀ second ∈ others,
      pick (first.1.union second.1) = (left first.1 && right second.1)) :
    weight (others.map fun second => (first.1.union second.1, first.2.mul second.2)) pick =
      (if left first.1 then first.2.normSq else 0) * weight others right := by
  induction others with
  | nil => simp [weight]
  | cons second rest ih =>
      rw [List.map_cons, weight_cons, weight_cons, ih fun other member =>
        decides other (List.mem_cons_of_mem second member), decides second List.mem_cons_self]
      have product : (first.2.mul second.2).normSq = first.2.normSq * second.2.normSq :=
        Amplitude.norm_sq_mul first.2 second.2
      dsimp only
      rw [product]
      cases left first.1 <;> cases right second.1 <;> simp [mul_add]

theorem weight_product {entries others : List (BasisState × Amplitude R)}
    {pick left right : BasisState → Bool}
    (decides : ∀ first ∈ entries, ∀ second ∈ others,
      pick (first.1.union second.1) = (left first.1 && right second.1)) :
    weight (entries.flatMap fun first => others.map fun second =>
        (first.1.union second.1, first.2.mul second.2)) pick =
      weight entries left * weight others right := by
  induction entries with
  | nil => simp [weight]
  | cons first rest ih =>
      rw [List.flatMap_cons, weight_append, weight_cons, weight_paired first
        (decides first List.mem_cons_self), ih fun other member =>
        decides other (List.mem_cons_of_mem first member), add_mul]

end Amplitudes

namespace SparseState

theorem weight_tensor {state other : SparseState R}
    (apart : ∀ first second, state.Stores first → other.Stores second →
      first.isDisjoint second = true) (pick left right : BasisState → Bool)
    (decides : ∀ first second, state.Stores first → other.Stores second →
      pick (first.union second) = (left first && right second)) :
    (state.tensor other).weight pick = state.weight left * other.weight right := by
  unfold weight
  rw [tensor, Amplitudes.weight_perm (Amplitudes.entries_perm (distinct_tensor apart)) pick]
  apply Amplitudes.weight_product
  intro first firstMember second secondMember
  exact decides first.1 second.1 (stores_of_mem_entries firstMember)
    (stores_of_mem_entries secondMember)

omit [ExactScalar R] in
theorem inside_tensor [Scalar R] {state other : SparseState R} {positions others : List Nat}
    (inside : ∀ index, state.Stores index → index.Inside positions)
    (otherInside : ∀ index, other.Stores index → index.Inside others) (index : BasisState)
    (stored : (state.tensor other).Stores index) : index.Inside (positions ++ others) := by
  obtain ⟨first, second, firstStored, secondStored, same⟩ := stores_tensor stored
  rw [same]
  exact BasisState.inside_union (inside first firstStored) (otherInside second secondStored)

theorem weight_ground {pick : BasisState → Bool} (picked : pick .zero = true) :
    (ground : SparseState R).weight pick = 1 := by
  have only : (ground : SparseState R).entries.Perm [(.zero, .one)] :=
    Amplitudes.entries_perm (List.pairwise_singleton _ _)
  rw [weight, Amplitudes.weight_perm only, Amplitudes.weight_cons, if_pos picked,
    Amplitude.norm_sq_eq]
  change (1 : R) * 1 + 0 * 0 + 0 = 1
  rw [mul_one, mul_zero, add_zero, add_zero]

end SparseState

/-! ### Partitions -/

omit [ExactScalar R] in
theorem fresh_of_pairwise {partition : Partition R} {rest : List (Partition R)} {seen : List Nat}
    (later : List.Disjoint seen (membersOf rest))
    (different : ∀ other ∈ rest, List.Disjoint partition.members other.members) :
    List.Disjoint (seen ++ partition.members) (membersOf rest) := by
  rw [List.disjoint_append_left]
  refine ⟨later, fun slot member elsewhere => ?_⟩
  obtain ⟨other, source, held⟩ := List.mem_flatMap.1 elsewhere
  exact different other source member held

section Product

variable {partitions : List (Partition R)} {start : SparseState R} {seen : List Nat}
  (isLocal : ∀ partition ∈ partitions, partition.Local)
  (normalized : ∀ partition ∈ partitions, partition.state.totalProbability = 1)
  (startInside : ∀ index, start.Stores index → index.Inside seen)

include isLocal normalized startInside

/-- Partitions that have no say in what is picked do not change its probability. -/
theorem weight_foldl_tensor (fresh : List.Disjoint seen (membersOf partitions))
    (apart : partitions.Pairwise fun left right => List.Disjoint left.members right.members)
    (pick : BasisState → Bool)
    (blind : ∀ partition ∈ partitions, ∀ first second, partition.state.Stores second →
      pick (first.union second) = pick first) :
    (partitions.foldl (fun state partition => state.tensor partition.state) start).weight pick =
      start.weight pick := by
  induction partitions generalizing start seen with
  | nil => rfl
  | cons partition rest ih =>
      obtain ⟨different, restApart⟩ := List.pairwise_cons.1 apart
      rw [membersOf, List.flatMap_cons] at fresh
      obtain ⟨here, later⟩ := List.disjoint_append_right.1 fresh
      have partLocal := isLocal partition List.mem_cons_self
      have separate (first second : BasisState) (firstStored : start.Stores first)
          (secondStored : partition.state.Stores second) : first.isDisjoint second = true :=
        BasisState.is_disjoint_of_inside (startInside first firstStored)
          (partLocal second secondStored) here
      have joined : (start.tensor partition.state).weight pick = start.weight pick := by
        rw [SparseState.weight_tensor separate pick pick (fun _ => true) fun first second _
            secondStored => by
            rw [blind partition List.mem_cons_self first second secondStored, Bool.and_true],
          ← SparseState.total_probability_eq, normalized partition List.mem_cons_self, mul_one]
      rw [List.foldl_cons, ih (fun other member => isLocal other (List.mem_cons_of_mem _ member))
        (fun other member => normalized other (List.mem_cons_of_mem _ member))
        (SparseState.inside_tensor startInside partLocal) (fresh_of_pairwise later different)
        restApart (fun other member => blind other (List.mem_cons_of_mem _ member)), joined]

end Product

omit [ExactScalar R] in
theorem clear_of_disjoint {index : BasisState} {members others : List Nat}
    (inside : index.Inside others) (apart : List.Disjoint others members) {slot : Nat}
    (member : slot ∈ members) : index.isOne slot = false := by
  rw [Bool.eq_false_iff]
  exact fun one => apart (inside slot one) member

/-- Next to a state of total probability 1 that is clear of the slot, a partition keeps the
probabilities of the slot. -/
theorem branch_probability_tensor {state : SparseState R} {partition : Partition R}
    {positions : List Nat} (inside : ∀ index, state.Stores index → index.Inside positions)
    (isLocal : partition.Local) (apart : List.Disjoint positions partition.members)
    (total : state.weight (fun _ => true) = 1) {slot : Nat} (member : slot ∈ partition.members)
    (outcome : Bool) :
    (state.tensor partition.state).branchProbability slot outcome =
      partition.state.branchProbability slot outcome := by
  have separate (first second : BasisState) (firstStored : state.Stores first)
      (secondStored : partition.state.Stores second) : first.isDisjoint second = true :=
    BasisState.is_disjoint_of_inside (inside first firstStored) (isLocal second secondStored) apart
  have decides (first second : BasisState) (firstStored : state.Stores first)
      (_ : partition.state.Stores second) :
      ((first.union second).isOne slot == outcome) =
        (true && (second.isOne slot == outcome)) := by
    rw [BasisState.is_one_union, clear_of_disjoint (inside first firstStored) apart member,
      Bool.false_or, Bool.true_and]
  have product := SparseState.weight_tensor separate (fun index => index.isOne slot == outcome)
    (fun _ => true) (fun index => index.isOne slot == outcome) decides
  rw [total, one_mul] at product
  rw [SparseState.branch_probability_eq, SparseState.branch_probability_eq]
  exact product

/-- States of total probability 1 have total probability 1 side by side. -/
theorem total_probability_tensor_all {partitions : List (Partition R)}
    (isLocal : ∀ partition ∈ partitions, partition.Local)
    (normalized : ∀ partition ∈ partitions, partition.state.totalProbability = 1)
    (apart : partitions.Pairwise fun left right => List.Disjoint left.members right.members) :
    (tensorAll partitions).totalProbability = 1 := by
  rw [SparseState.total_probability_eq]
  exact (weight_foldl_tensor isLocal normalized (Partition.ground_local [])
    (List.disjoint_nil_left _) apart (fun _ => true) fun _ _ _ _ _ => rfl).trans
    (SparseState.weight_ground rfl)

/-- The partition of a slot alone tells how probable its values are in the product. -/
theorem branch_probability_tensor_all {earlier later : List (Partition R)}
    {partition : Partition R}
    (isLocal : ∀ other ∈ earlier ++ partition :: later, other.Local)
    (normalized : ∀ other ∈ earlier ++ partition :: later, other.state.totalProbability = 1)
    (apart : (earlier ++ partition :: later).Pairwise fun left right =>
      List.Disjoint left.members right.members) {slot : Nat} (member : slot ∈ partition.members)
    (outcome : Bool) :
    (tensorAll (earlier ++ partition :: later)).branchProbability slot outcome =
      partition.state.branchProbability slot outcome := by
  obtain ⟨earlierApart, restApart, across⟩ := List.pairwise_append.1 apart
  obtain ⟨laterDifferent, laterApart⟩ := List.pairwise_cons.1 restApart
  have inEarlier {other : Partition R} (listed : other ∈ earlier) :
      other ∈ earlier ++ partition :: later := List.mem_append_left _ listed
  have inLater {other : Partition R} (listed : other ∈ later) :
      other ∈ earlier ++ partition :: later :=
    List.mem_append_right _ (List.mem_cons_of_mem _ listed)
  have here : partition ∈ earlier ++ partition :: later :=
    List.mem_append_right _ List.mem_cons_self
  -- The earlier partitions have a total probability of 1, and the later ones no say in the slot.
  have firstInside (index : BasisState) (stored : (tensorAll earlier).Stores index) :
      index.Inside (membersOf earlier) := by
    have inside := inside_of_foldl_tensor (fun other listed => isLocal other (inEarlier listed))
      (Partition.ground_local []) stored
    rw [List.nil_append] at inside
    exact inside
  have firstTotal := total_probability_tensor_all
    (fun other listed => isLocal other (inEarlier listed))
    (fun other listed => normalized other (inEarlier listed)) earlierApart
  rw [SparseState.total_probability_eq] at firstTotal
  have firstApart (other : Partition R) (listed : other ∈ partition :: later) :
      List.Disjoint (membersOf earlier) other.members := by
    intro position inOne inOther
    obtain ⟨source, sourceListed, held⟩ := List.mem_flatMap.1 inOne
    exact across source sourceListed other listed held inOther
  have fresh : List.Disjoint (membersOf earlier ++ partition.members) (membersOf later) := by
    apply fresh_of_pairwise _ laterDifferent
    intro position inOne inOther
    obtain ⟨other, listed, held⟩ := List.mem_flatMap.1 inOther
    exact firstApart other (List.mem_cons_of_mem _ listed) inOne held
  have blind (other : Partition R) (listed : other ∈ later) (index second : BasisState)
      (stored : other.state.Stores second) :
      ((index.union second).isOne slot == outcome) = (index.isOne slot == outcome) := by
    rw [BasisState.is_one_union, clear_of_disjoint (isLocal other (inLater listed) second stored)
      (laterDifferent other listed).symm member, Bool.or_false]
  have rest := weight_foldl_tensor (fun other listed => isLocal other (inLater listed))
    (fun other listed => normalized other (inLater listed))
    (SparseState.inside_tensor firstInside (isLocal partition here)) fresh laterApart
    (fun index => index.isOne slot == outcome) blind
  rw [← SparseState.branch_probability_eq, ← SparseState.branch_probability_eq,
    branch_probability_tensor firstInside (isLocal partition here)
      (firstApart partition List.mem_cons_self) firstTotal member] at rest
  rw [tensorAll, List.foldl_append, List.foldl_cons]
  exact rest

theorem Arena.branch_probability_whole {arena : Arena R} (wellFormed : arena.WellFormed)
    (isLocal : arena.Local)
    (normalized : ∀ partition ∈ arena.inUse, partition.state.totalProbability = 1) {place : Nat}
    {partition : Partition R} (stands : arena.partitions[place]? = some partition)
    (used : place ∉ arena.vacant) {slot : Nat} (member : slot ∈ partition.members)
    (outcome : Bool) :
    arena.whole.branchProbability slot outcome =
      partition.state.branchProbability slot outcome := by
  have listed : partition ∈ arena.inUse := mem_in_use_iff.2 ⟨place, used, stands⟩
  have apart := in_use_disjoint wellFormed
  have eachLocal : ∀ other ∈ arena.inUse, other.Local := by
    intro other inUse
    obtain ⟨source, _, found⟩ := mem_in_use_iff.1 inUse
    exact isLocal source other found
  unfold whole
  obtain ⟨earlier, later, split⟩ := List.append_of_mem listed
  rw [split] at apart eachLocal normalized ⊢
  exact branch_probability_tensor_all eachLocal normalized apart member outcome

end SparseQuantum
