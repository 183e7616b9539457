import Mathlib
import SparseQuantum.Proofs.GlobalState

/-!
# Amplitudes of the product, without rounding laws

What the product of all partitions stores at a basis state is the product of what the partitions
store at its parts, multiplied in the order of their places; nothing is assumed of the arithmetic.
So arenas that store the same parts store the same product. Only where products may be taken in any
order does joining partitions leave the product as it is.
-/

namespace SparseQuantum

set_option autoImplicit false

variable {R : Type} [Scalar R]

/-- Products of amplitudes can be taken in any order. -/
structure ProductLaws (R : Type) [Scalar R] : Prop where
  mul_comm : ∀ first second : Amplitude R, first.mul second = second.mul first
  mul_assoc : ∀ first second third : Amplitude R,
    (first.mul second).mul third = first.mul (second.mul third)

theorem product_laws {K : Type} [ExactScalar K] : ProductLaws K :=
  ⟨mul_comm, mul_assoc⟩

namespace SparseState

theorem get_tensor_of_inside {left right : SparseState R} {positions others : List Nat}
    (leftInside : ∀ index, left.Stores index → index.Inside positions)
    (rightInside : ∀ index, right.Stores index → index.Inside others)
    (apart : List.Disjoint positions others) {index : BasisState}
    (inside : index.Inside (positions ++ others)) :
    (left.tensor right).get? index =
      Option.map₂ Amplitude.mul (left.get? (index.restrict positions))
        (right.get? (index.restrict others)) := by
  have disjoint : ∀ first second, left.Stores first → right.Stores second →
      first.isDisjoint second = true := fun first second leftStored rightStored =>
    BasisState.is_disjoint_of_inside (leftInside first leftStored)
      (rightInside second rightStored) apart
  apply Option.ext
  intro amplitude
  rw [get_tensor_iff disjoint, Option.map₂_eq_some_iff]
  constructor
  · rintro ⟨first, second, leftAmplitude, rightAmplitude, leftFound, rightFound, joined, product⟩
    have firstInside := leftInside first ⟨leftAmplitude, leftFound⟩
    have secondInside := rightInside second ⟨rightAmplitude, rightFound⟩
    have leftPart : index.restrict positions = first := by
      rw [← joined]
      exact BasisState.restrict_union_left firstInside secondInside apart
    have rightPart : index.restrict others = second := by
      rw [← joined, BasisState.union_comm]
      exact BasisState.restrict_union_left secondInside firstInside apart.symm
    rw [leftPart, rightPart]
    exact ⟨leftAmplitude, rightAmplitude, leftFound, rightFound, product⟩
  · rintro ⟨leftAmplitude, rightAmplitude, leftFound, rightFound, product⟩
    have whole : (index.restrict positions).union (index.restrict others) = index := by
      rw [← BasisState.restrict_append, BasisState.restrict_of_inside inside]
    exact ⟨_, _, leftAmplitude, rightAmplitude, leftFound, rightFound, whole, product⟩

end SparseState

/-! ### Products over partitions -/

def Partition.part? (partition : Partition R) (index : BasisState) : Option (Amplitude R) :=
  partition.state.get? (index.restrict partition.members)

/-- The product of what partitions store at their parts, from `start` on. -/
def productFrom (start : Option (Amplitude R)) (partitions : List (Partition R))
    (index : BasisState) : Option (Amplitude R) :=
  partitions.foldl (fun found partition =>
    Option.map₂ Amplitude.mul found (partition.part? index)) start

theorem product_from_nil (start : Option (Amplitude R)) (index : BasisState) :
    productFrom start [] index = start := rfl

theorem product_from_cons (start : Option (Amplitude R)) (partition : Partition R)
    (rest : List (Partition R)) (index : BasisState) :
    productFrom start (partition :: rest) index =
      productFrom (Option.map₂ Amplitude.mul start (partition.part? index)) rest index := rfl

/-- The induction is on the partitions still to come; those before are `start`, inside `seen`. -/
theorem get_foldl_tensor {partitions : List (Partition R)} {start : SparseState R} {seen : List Nat}
    (isLocal : ∀ partition ∈ partitions, partition.Local)
    (startInside : ∀ index, start.Stores index → index.Inside seen)
    (fresh : List.Disjoint seen (membersOf partitions))
    (apart : partitions.Pairwise fun left right => List.Disjoint left.members right.members)
    {index : BasisState} (inside : index.Inside (seen ++ membersOf partitions)) :
    (partitions.foldl (fun state partition => state.tensor partition.state) start).get? index =
      productFrom (start.get? (index.restrict seen)) partitions index := by
  induction partitions generalizing start seen with
  | nil =>
      rw [membersOf, List.flatMap_nil, List.append_nil] at inside
      rw [BasisState.restrict_of_inside inside]
      rfl
  | cons partition rest induction =>
      obtain ⟨different, restApart⟩ := List.pairwise_cons.1 apart
      rw [membersOf, List.flatMap_cons] at fresh inside
      obtain ⟨here, later⟩ := List.disjoint_append_right.1 fresh
      have partLocal := isLocal partition List.mem_cons_self
      have joinedInside : ∀ joined, (start.tensor partition.state).Stores joined →
          joined.Inside (seen ++ partition.members) := by
        intro joined stored
        obtain ⟨first, second, firstStored, secondStored, same⟩ := SparseState.stores_tensor stored
        rw [same]
        exact BasisState.inside_union (startInside first firstStored)
          (partLocal second secondStored)
      have restFresh : List.Disjoint (seen ++ partition.members) (membersOf rest) := by
        rw [List.disjoint_append_left]
        refine ⟨later, ?_⟩
        intro slot member elsewhere
        obtain ⟨other, source, held⟩ := List.mem_flatMap.1 elsewhere
        exact different other source member held
      rw [← List.append_assoc] at inside
      rw [List.foldl_cons, induction (fun other member => isLocal other
        (List.mem_cons_of_mem _ member)) joinedInside restFresh restApart inside,
        SparseState.get_tensor_of_inside startInside partLocal here
          (BasisState.inside_restrict _ _),
        BasisState.restrict_restrict (List.subset_append_left _ _),
        BasisState.restrict_restrict (List.subset_append_right _ _)]
      rfl

theorem product_from_none (partitions : List (Partition R)) (index : BasisState) :
    productFrom none partitions index = none := by
  induction partitions with
  | nil => rfl
  | cons partition rest induction =>
      rw [product_from_cons, Option.map₂_none_left, induction]

theorem product_from_of_missing {partitions : List (Partition R)} {partition : Partition R}
    (member : partition ∈ partitions) {index : BasisState}
    (missing : partition.part? index = none) (start : Option (Amplitude R)) :
    productFrom start partitions index = none := by
  induction partitions generalizing start with
  | nil => exact absurd member List.not_mem_nil
  | cons first rest induction =>
      rw [product_from_cons]
      rcases List.mem_cons.1 member with here | later
      · rw [← here, missing, Option.map₂_none_right, product_from_none]
      · exact induction later _

theorem product_from_congr {left right : List (Partition R)} {index other : BasisState}
    (same : List.Forall₂ (fun first second => first.part? index = second.part? other) left right)
    (start : Option (Amplitude R)) :
    productFrom start left index = productFrom start right other := by
  induction same generalizing start with
  | nil => rw [product_from_nil, product_from_nil]
  | @cons first second lefts rights here _ induction =>
      rw [product_from_cons, product_from_cons, here, induction]

theorem product_from_is_some {partitions : List (Partition R)} {index : BasisState}
    {start : Option (Amplitude R)} :
    (productFrom start partitions index).isSome = true ↔
      start.isSome = true ∧
        ∀ partition ∈ partitions, partition.state.Stores (index.restrict partition.members) := by
  induction partitions generalizing start with
  | nil => simp [product_from_nil]
  | cons partition rest induction =>
      have stored : (Option.map₂ Amplitude.mul start (partition.part? index)).isSome = true ↔
          start.isSome = true ∧ partition.state.Stores (index.restrict partition.members) := by
        cases start <;> cases found : partition.part? index <;>
          simp_all [SparseState.Stores, Partition.part?]
      rw [product_from_cons, induction, stored, List.forall_mem_cons, and_assoc]

namespace Arena

section Whole

variable {arena : Arena R} (wellFormed : arena.WellFormed) (isLocal : arena.Local)

include wellFormed isLocal

theorem get_whole_of_covers {index : BasisState} (covers : arena.Covers index) :
    arena.whole.get? index = productFrom (some .one) arena.inUse index := by
  have locals : ∀ partition ∈ arena.inUse, partition.Local := by
    intro partition inUse
    obtain ⟨place, _, found⟩ := mem_in_use_iff.1 inUse
    exact isLocal place partition found
  have inside : index.Inside ([] ++ membersOf arena.inUse) :=
    fun position one => (mem_members_in_use wellFormed position).2 (covers position one)
  have product := get_foldl_tensor locals (Partition.ground_local []) (List.disjoint_nil_left _)
    (in_use_disjoint wellFormed) inside
  rw [BasisState.restrict_nil, SparseState.get_ground, if_pos rfl] at product
  exact product

theorem get_whole_of_not_covers {index : BasisState} (outside : ¬arena.Covers index) :
    arena.whole.get? index = none := by
  rw [Option.eq_none_iff_forall_ne_some]
  intro amplitude found
  apply outside
  have locals : ∀ partition ∈ arena.inUse, partition.Local := by
    intro partition inUse
    obtain ⟨place, _, found⟩ := mem_in_use_iff.1 inUse
    exact isLocal place partition found
  have inside := inside_of_foldl_tensor locals (Partition.ground_local []) ⟨amplitude, found⟩
  intro position one
  rw [← mem_members_in_use wellFormed]
  exact inside position one

/-- Which basis states the product stores depends on the parts alone, not on their amplitudes. -/
theorem stores_whole_iff {index : BasisState} :
    arena.whole.Stores index ↔ arena.Covers index ∧
      ∀ partition ∈ arena.inUse, partition.state.Stores (index.restrict partition.members) := by
  have listed : arena.whole.Stores index ↔ (arena.whole.get? index).isSome = true :=
    Option.isSome_iff_exists.symm
  rw [listed]
  by_cases covers : arena.Covers index
  · rw [get_whole_of_covers wellFormed isLocal covers, product_from_is_some]
    simp [covers]
  · rw [get_whole_of_not_covers wellFormed isLocal covers]
    simp [covers]

theorem get_whole_of_missing {place : Nat} {partition : Partition R} (used : place ∉ arena.vacant)
    (found : arena.partitions[place]? = some partition) {index : BasisState}
    (missing : partition.part? index = none) : arena.whole.get? index = none := by
  by_cases covers : arena.Covers index
  · rw [get_whole_of_covers wellFormed isLocal covers]
    exact product_from_of_missing (mem_in_use_iff.2 ⟨place, used, found⟩) missing _
  · exact get_whole_of_not_covers wellFormed isLocal covers

end Whole

theorem get_whole_congr {left right : Arena R} (leftFormed : left.WellFormed)
    (leftLocal : left.Local) (rightFormed : right.WellFormed) (rightLocal : right.Local)
    {index other : BasisState} (covers : left.Covers index ↔ right.Covers other)
    (size : left.partitions.size = right.partitions.size) (vacant : left.vacant = right.vacant)
    (same : ∀ place : Nat, Option.Rel (fun first second => first.part? index = second.part? other)
      left.partitions[place]? right.partitions[place]?) :
    left.whole.get? index = right.whole.get? other := by
  by_cases covered : left.Covers index
  · rw [get_whole_of_covers leftFormed leftLocal covered,
      get_whole_of_covers rightFormed rightLocal (covers.1 covered)]
    apply product_from_congr
    rw [inUse, inUse, size, vacant]
    refine @List.rel_filterMap Nat Nat (Partition R) (Partition R) Eq _ _ _ ?_ _ _
      (List.forall₂_refl _)
    rintro place _ rfl
    dsimp only
    split_ifs
    · exact .none
    · exact same place
  · rw [get_whole_of_not_covers leftFormed leftLocal covered,
      get_whole_of_not_covers rightFormed rightLocal fun there => covered (covers.2 there)]

/-! ### Joined partitions -/

theorem in_use_perm {arena : Arena R} {place : Nat} {partition : Partition R}
    (used : place ∉ arena.vacant) (found : arena.partitions[place]? = some partition) :
    arena.inUse.Perm (partition :: ((List.range arena.partitions.size).erase place).filterMap
      fun other => if other ∈ arena.vacant then none else arena.partitions[other]?) := by
  have listed : place ∈ List.range arena.partitions.size :=
    List.mem_range.2 (Array.getElem?_eq_some_iff.1 found).1
  have split := (List.perm_cons_erase listed).filterMap
    fun other => if other ∈ arena.vacant then none else arena.partitions[other]?
  rw [List.filterMap_cons, if_neg used, found] at split
  exact split

theorem joins_size {arena after : Arena R} {survivor absorbed : Nat} {target taken : Partition R}
    (joins : Joins arena after survivor absorbed target taken) :
    after.partitions.size = arena.partitions.size := by
  have same (place : Nat) :
      after.partitions.size ≤ place ↔ arena.partitions.size ≤ place := by
    rw [← Array.getElem?_eq_none_iff, ← Array.getElem?_eq_none_iff, joins.partitions]
    split_ifs with isSurvivor isAbsorbed
    · rw [isSurvivor, joins.target_found]
      simp
    · rw [isAbsorbed, joins.taken_found]
      simp
    · rfl
  have here := same after.partitions.size
  have there := same arena.partitions.size
  omega

/-- A join takes two partitions out of use and the joined one into use. -/
theorem in_use_perm_of_joins {arena after : Arena R} {survivor absorbed : Nat}
    {target taken : Partition R} (joins : Joins arena after survivor absorbed target taken) :
    ∃ rest, arena.inUse.Perm (target :: taken :: rest) ∧
      after.inUse.Perm (both target taken :: rest) := by
  let places := ((List.range arena.partitions.size).erase survivor).erase absorbed
  let stands := fun (arena : Arena R) (place : Nat) =>
    if place ∈ arena.vacant then none else arena.partitions[place]?
  have absorbedListed : absorbed ∈ (List.range arena.partitions.size).erase survivor := by
    rw [List.mem_erase_of_ne joins.different.symm, List.mem_range]
    exact (Array.getElem?_eq_some_iff.1 joins.taken_found).1
  have joined := joins.partitions survivor
  rw [if_pos rfl] at joined
  have survivorUsed : survivor ∉ after.vacant := by
    rw [joins.vacant, List.mem_cons, not_or]
    exact ⟨joins.different, joins.target_used⟩
  have split := (List.perm_cons_erase absorbedListed)
  have before := split.filterMap (stands arena)
  have later := split.filterMap (stands after)
  rw [List.filterMap_cons] at before later
  have takenHere : stands arena absorbed = some taken := by
    simp only [stands, if_neg joins.taken_used, joins.taken_found]
  have clearedHere : stands after absorbed = none := by
    simp only [stands, joins.vacant, List.mem_cons_self, if_true]
  have elsewhere : places.filterMap (stands after) = places.filterMap (stands arena) := by
    apply List.filterMap_congr
    intro place member
    have distinct : ((List.range arena.partitions.size).erase survivor).Nodup :=
      List.nodup_range.erase _
    have notAbsorbed : place ≠ absorbed := (distinct.mem_erase_iff.1 member).1
    have notSurvivor : place ≠ survivor :=
      (List.nodup_range.mem_erase_iff.1 (distinct.mem_erase_iff.1 member).2).1
    simp only [stands, joins.vacant, joins.partitions, List.mem_cons, notAbsorbed, notSurvivor,
      false_or, if_false]
  rw [takenHere] at before
  rw [clearedHere] at later
  refine ⟨places.filterMap (stands arena), ?_, ?_⟩
  · exact (in_use_perm joins.target_used joins.target_found).trans (before.cons target)
  · have first := in_use_perm survivorUsed joined
    rw [joins_size joins] at first
    rw [← elsewhere]
    exact first.trans (later.cons _)

theorem joins_covers_iff {arena after : Arena R} {survivor absorbed : Nat}
    {target taken : Partition R} (wellFormed : arena.WellFormed)
    (joins : Joins arena after survivor absorbed target taken) (index : BasisState) :
    after.Covers index ↔ arena.Covers index :=
  forall₂_congr fun slot _ => joins_owns_iff wellFormed joins slot

theorem part_both {target taken : Partition R} (targetLocal : target.Local)
    (takenLocal : taken.Local) (apart : List.Disjoint target.members taken.members)
    (index : BasisState) : (both target taken).part? index =
      Option.map₂ Amplitude.mul (target.part? index) (taken.part? index) := by
  rw [Partition.part?, both,
    SparseState.get_tensor_of_inside targetLocal takenLocal apart (BasisState.inside_restrict _ _),
    BasisState.restrict_restrict (List.subset_append_left _ _),
    BasisState.restrict_restrict (List.subset_append_right _ _)]
  rfl

theorem stores_whole_of_joins {arena after : Arena R} {survivor absorbed : Nat}
    {target taken : Partition R} (wellFormed : arena.WellFormed) (isLocal : arena.Local)
    (joins : Joins arena after survivor absorbed target taken) (index : BasisState) :
    after.whole.Stores index ↔ arena.whole.Stores index := by
  obtain ⟨rest, before, later⟩ := in_use_perm_of_joins joins
  have apart := wellFormed.members_disjoint joins.target_found joins.taken_found joins.different
  have joined := part_both (isLocal survivor target joins.target_found)
    (isLocal absorbed taken joins.taken_found) apart index
  have stored : (both target taken).state.Stores (index.restrict (both target taken).members) ↔
      target.state.Stores (index.restrict target.members) ∧
        taken.state.Stores (index.restrict taken.members) := by
    unfold Partition.part? at joined
    simp only [SparseState.Stores, joined, Option.map₂_eq_some_iff]
    constructor
    · rintro ⟨_, first, second, firstFound, secondFound, _⟩
      exact ⟨⟨first, firstFound⟩, ⟨second, secondFound⟩⟩
    · rintro ⟨⟨first, firstFound⟩, ⟨second, secondFound⟩⟩
      exact ⟨_, first, second, firstFound, secondFound, rfl⟩
  rw [stores_whole_iff (joins_well_formed wellFormed joins) (joins_local isLocal joins),
    stores_whole_iff wellFormed isLocal, joins_covers_iff wellFormed joins]
  simp only [before.mem_iff, later.mem_iff, List.forall_mem_cons, stored, and_assoc]

/-- Merging moves no basis state into the product or out of it, whatever the order of products. -/
theorem stores_whole_of_merges {survivor : Nat} {arena merged : Arena R}
    (merges : Merges survivor arena merged) (isLocal : arena.Local) (index : BasisState) :
    merged.whole.Stores index ↔ arena.whole.Stores index := by
  induction merges with
  | done => rfl
  | join wellFormed joins _ induction =>
      rw [induction (joins_local isLocal joins),
        stores_whole_of_joins wellFormed isLocal joins index]

section Laws

variable (laws : ProductLaws R)

include laws

theorem product_from_perm {left right : List (Partition R)} (perm : left.Perm right)
    (start : Option (Amplitude R)) (index : BasisState) :
    productFrom start left index = productFrom start right index := by
  apply perm.foldl_eq'
  intro first _ second _ found
  cases found with
  | none => rw [Option.map₂_none_left, Option.map₂_none_left, Option.map₂_none_left]
  | some amplitude =>
      cases first.part? index with
      | none => rw [Option.map₂_none_right, Option.map₂_none_left, Option.map₂_none_right]
      | some one =>
          cases second.part? index with
          | none => rfl
          | some other =>
              change some ((amplitude.mul one).mul other) = some ((amplitude.mul other).mul one)
              rw [laws.mul_assoc, laws.mul_comm one, ← laws.mul_assoc]

theorem whole_of_joins {arena after : Arena R} {survivor absorbed : Nat}
    {target taken : Partition R} (wellFormed : arena.WellFormed) (isLocal : arena.Local)
    (joins : Joins arena after survivor absorbed target taken) : after.whole = arena.whole := by
  have afterFormed := joins_well_formed wellFormed joins
  have afterLocal := joins_local isLocal joins
  have targetLocal := isLocal survivor target joins.target_found
  have takenLocal := isLocal absorbed taken joins.taken_found
  have apart := wellFormed.members_disjoint joins.target_found joins.taken_found joins.different
  apply SparseState.ext_get
  intro index
  have covers := joins_covers_iff wellFormed joins index
  by_cases covered : arena.Covers index
  · obtain ⟨rest, before, later⟩ := in_use_perm_of_joins joins
    have joined := part_both targetLocal takenLocal apart index
    rw [get_whole_of_covers afterFormed afterLocal (covers.2 covered),
      get_whole_of_covers wellFormed isLocal covered, product_from_perm laws later,
      product_from_perm laws before, product_from_cons, product_from_cons, product_from_cons,
      joined]
    congr 1
    cases target.part? index with
    | none => rfl
    | some first =>
        cases taken.part? index with
        | none => rfl
        | some second => exact congrArg some (laws.mul_assoc .one first second).symm
  · rw [get_whole_of_not_covers afterFormed afterLocal (mt covers.1 covered),
      get_whole_of_not_covers wellFormed isLocal covered]

/-- Where products can be taken in any order, merging cannot be seen in the product. -/
theorem whole_of_merges {survivor : Nat} {arena merged : Arena R}
    (merges : Merges survivor arena merged) (isLocal : arena.Local) :
    merged.whole = arena.whole := by
  induction merges with
  | done => rfl
  | join wellFormed joins _ induction =>
      rw [induction (joins_local isLocal joins), whole_of_joins laws wellFormed isLocal joins]

end Laws

end Arena

end SparseQuantum
