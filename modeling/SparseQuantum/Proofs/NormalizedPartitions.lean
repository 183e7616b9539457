import Mathlib
import SparseQuantum.Proofs.LocalMeasurement
import SparseQuantum.Proofs.PreservedProbability

/-!
# Partitions of total probability 1

Slots that are taken, partitions that are joined and gates that are unitary leave every partition
with total probability 1, and so the product of all partitions has it too. What the other partitions
give a basis state is then a number of magnitude at most 1, and every part of one partition is met
in the product next to something that is not zero. So no amplitude of the product is larger than the
amplitude of its part: a gate that makes only zeros and kept amplitudes of the product neglects
nothing but zeros in the partition that it is applied to.
-/

namespace SparseQuantum

set_option autoImplicit false

variable {R : Type} [ExactScalar R]

namespace SparseState

theorem total_probability_ground : (ground : SparseState R).totalProbability = 1 := by
  rw [total_probability_eq]
  exact weight_ground rfl

theorem total_probability_tensor {state other : SparseState R}
    (apart : ∀ first second, state.Stores first → other.Stores second →
      first.isDisjoint second = true) :
    (state.tensor other).totalProbability = state.totalProbability * other.totalProbability := by
  simp only [total_probability_eq]
  exact weight_tensor apart _ _ _ fun _ _ _ _ => rfl

/-- No amplitude has more than all the probability. -/
theorem norm_sq_le_total (state : SparseState R) (index : BasisState) :
    (state.value index).normSq ≤ state.totalProbability := by
  rw [total_probability_eq_sum]
  exact Finset.single_le_sum (f := fun index => (state.value index).normSq)
    (fun other _ => Amplitude.norm_sq_nonneg (state.value other)) (Finset.mem_univ index)

end SparseState

/-- What the gate makes of the amplitudes is zero or large enough to be kept, if it mixes them. -/
def Gate.Spares (gate : Gate R) (target : Nat) (controls : List Nat)
    (amplitude : BasisState → Amplitude R) : Prop :=
  gate.mixing? = none ∨ ∀ index, gate.matrix.act target controls amplitude index = 0 ∨
    (gate.matrix.act target controls amplitude index).isKept = true

namespace Arena

open SparseState

/-! ### Every partition -/

theorem normalized_iff {arena : Arena R} (wellFormed : arena.WellFormed) :
    arena.Normalized ↔ ∀ (place : Nat) (partition : Partition R),
      arena.partitions[place]? = some partition → partition.state.totalProbability = 1 := by
  constructor
  · intro normalized place partition found
    by_cases vacant : place ∈ arena.vacant
    · have cleared := wellFormed.vacant_cleared place vacant
      rw [found, Option.some.injEq] at cleared
      rw [cleared]
      exact total_probability_ground
    · exact normalized partition (mem_in_use_iff.2 ⟨place, vacant, found⟩)
  · intro everywhere partition inUse
    obtain ⟨place, _, found⟩ := mem_in_use_iff.1 inUse
    exact everywhere place partition found

theorem normalized_empty : (empty : Arena R).Normalized := by
  intro partition inUse
  obtain ⟨place, _, found⟩ := mem_in_use_iff.1 inUse
  rw [empty, Array.getElem?_empty] at found
  cases found

theorem normalized_inserts {arena grown : Arena R} {slot place : Nat}
    (wellFormed : arena.WellFormed) (inserts : Inserts arena grown slot place)
    (grownFormed : grown.WellFormed) (normalized : arena.Normalized) : grown.Normalized := by
  rw [normalized_iff wellFormed] at normalized
  rw [normalized_iff grownFormed]
  intro other partition found
  rw [inserts.partitions] at found
  split_ifs at found
  · cases found
    exact total_probability_ground
  · exact normalized other partition found

theorem normalized_joins {arena after : Arena R} {survivor absorbed : Nat}
    {target taken : Partition R} (faithful : arena.Faithful)
    (joins : Joins arena after survivor absorbed target taken) (normalized : arena.Normalized) :
    after.Normalized := by
  rw [normalized_iff faithful.well_formed] at normalized
  rw [normalized_iff (joins_well_formed faithful.well_formed joins)]
  have targetLocal := faithful.is_local survivor target joins.target_found
  have takenLocal := faithful.is_local absorbed taken joins.taken_found
  have apart := faithful.well_formed.members_disjoint joins.target_found joins.taken_found
    joins.different
  intro other partition found
  rw [joins.partitions] at found
  split_ifs at found
  · cases found
    have product : (target.state.tensor taken.state).totalProbability =
        target.state.totalProbability * taken.state.totalProbability :=
      total_probability_tensor fun first second firstStored secondStored =>
        BasisState.is_disjoint_of_inside (targetLocal first firstStored)
          (takenLocal second secondStored) apart
    rw [normalized survivor target joins.target_found,
      normalized absorbed taken joins.taken_found, one_mul] at product
    exact product
  · cases found
    exact total_probability_ground
  · exact normalized other partition found

theorem normalized_merges {survivor : Nat} {arena merged : Arena R}
    (merges : Merges survivor arena merged) (faithful : arena.Faithful)
    (normalized : arena.Normalized) : merged.Normalized := by
  induction merges with
  | done => exact normalized
  | join _ joins _ induction =>
      exact induction (faithful_joins faithful joins) (normalized_joins faithful joins normalized)

theorem total_probability_whole {arena : Arena R} (faithful : arena.Faithful)
    (normalized : arena.Normalized) : arena.whole.totalProbability = 1 := by
  refine total_probability_tensor_all (fun partition inUse => ?_) normalized
    (in_use_disjoint faithful.well_formed)
  obtain ⟨place, _, found⟩ := mem_in_use_iff.1 inUse
  exact faithful.is_local place partition found

/-! ### One part among the others -/

section Parts

variable {arena : Arena R} (faithful : arena.Faithful) (normalized : arena.Normalized)
  {place : Nat} {partition : Partition R} (stands : arena.partitions[place]? = some partition)

theorem norm_sq_spectators_le (wellFormed : arena.WellFormed) (normalized : arena.Normalized)
    (place : Nat) (index : BasisState) : (arena.spectators place index).normSq ≤ 1 := by
  rw [normalized_iff wellFormed] at normalized
  refine Finset.prod_induction _ (fun value : Amplitude R => value.normSq ≤ 1) ?_ ?_
    fun other _ => ?_
  · intro left right leftBound rightBound
    rw [Amplitude.norm_sq_mul]
    exact mul_le_one₀ leftBound (Amplitude.norm_sq_nonneg right) rightBound
  · exact le_of_eq (by rw [Amplitude.norm_sq_eq, Amplitude.one_re, Amplitude.one_im]; ring)
  · cases found : arena.partitions[other]? with
    | none =>
        rw [factor_of_cleared (Or.inr found), Amplitude.norm_sq_eq, Amplitude.one_re,
          Amplitude.one_im]
        exact le_of_eq (by ring)
    | some elsewhere =>
        rw [factor_of_found found]
        exact (norm_sq_le_total _ _).trans_eq (normalized other elsewhere found)

include faithful normalized stands

/-- Every part of a partition is met next to parts of the others that have amplitude. -/
theorem part_is_met {origin : BasisState} (inside : origin.Inside partition.members) :
    ∃ index, arena.Covers index ∧ index.restrict partition.members = origin ∧
      arena.spectators place index ≠ 0 := by
  have possible : arena.whole.weight (fun _ => true) ≠ 0 := by
    rw [← total_probability_eq, total_probability_whole faithful normalized]
    exact one_ne_zero
  obtain ⟨other, ⟨amplitude, found⟩, _⟩ := stores_of_weight possible
  have different : arena.whole.value other ≠ 0 := by
    rw [value_of_get found]
    exact zero_free_whole faithful.zero_free other amplitude found
  have covers : arena.Covers other := by
    by_contra outside
    exact different (value_of_not_covers faithful.well_formed faithful.is_local outside)
  rw [value_of_covers faithful.well_formed faithful.is_local covers,
    amplitude_eq_spectators stands] at different
  -- The part at the members is exchanged, those of the other partitions stay.
  let index := BasisState.ofBits fun position =>
    if position ∈ partition.members then origin.isOne position else other.isOne position
  have bit (position : Nat) : index.isOne position =
      if position ∈ partition.members then origin.isOne position else other.isOne position := by
    rw [BasisState.is_one_of_bits]
    by_cases below : position < width
    · rw [decide_eq_true below, Bool.and_true]
    · rw [decide_eq_false below, Bool.and_false]
      have outside := Nat.le_of_not_lt below
      rw [BasisState.is_one_eq_false_of_width_le origin outside,
        BasisState.is_one_eq_false_of_width_le other outside, ite_self]
  refine ⟨index, ?_, ?_, ?_⟩
  · intro position one
    rw [bit] at one
    split_ifs at one with member
    · exact ⟨place, faithful.well_formed.owner_of_member stands member⟩
    · exact covers position one
  · apply BasisState.ext_is_one
    intro position _
    rw [BasisState.is_one_restrict, bit]
    by_cases member : position ∈ partition.members
    · rw [if_pos member, decide_eq_true member, Bool.and_true]
    · rw [decide_eq_false member, Bool.and_false]
      exact (Bool.eq_false_iff.2 fun one => member (inside position one)).symm
  · have same : arena.spectators place index = arena.spectators place other := by
      refine Finset.prod_congr rfl fun elsewhere source => ?_
      cases there : arena.partitions[elsewhere]? with
      | none => rw [factor_of_cleared (Or.inr there), factor_of_cleared (Or.inr there)]
      | some standing =>
          rw [factor_of_found there, factor_of_found there]
          refine congrArg standing.state.value (BasisState.ext_is_one fun position _ => ?_)
          rw [BasisState.is_one_restrict, BasisState.is_one_restrict, bit]
          by_cases member : position ∈ partition.members
          · have absent : position ∉ standing.members := fun held =>
              faithful.well_formed.members_disjoint stands there
                (Finset.mem_erase.1 source).1.symm member held
            rw [decide_eq_false absent, Bool.and_false, Bool.and_false]
          · rw [if_neg member]
    rw [same]
    exact right_ne_zero_of_mul different

theorem pruned_of_whole (pruned : arena.whole.Pruned) : partition.state.Pruned := by
  intro origin amplitude found
  obtain ⟨index, covers, part, different⟩ := part_is_met faithful normalized stands
    (faithful.is_local place partition stands origin ⟨amplitude, found⟩)
  have value : arena.whole.value index = amplitude * arena.spectators place index := by
    rw [value_of_covers faithful.well_formed faithful.is_local covers,
      amplitude_eq_spectators stands, part, value_of_get found]
  have product : arena.whole.value index ≠ 0 := by
    rw [value]
    exact mul_ne_zero (faithful.zero_free place partition stands origin amplitude found) different
  obtain ⟨stored, read⟩ := stores_of_value product
  apply Amplitude.is_kept_of_norm_sq_le (pruned index stored read)
  rw [← value_of_get read, value, Amplitude.norm_sq_mul]
  exact mul_le_of_le_one_right (Amplitude.norm_sq_nonneg amplitude)
    (norm_sq_spectators_le faithful.well_formed normalized place index)

section Gate

variable {target : Nat} {controls : List Nat} (member : target ∈ partition.members)
  (within : controls ⊆ partition.members) (below : ∀ slot ∈ target :: controls, slot < width)
  (absent : target ∉ controls)

include member within below absent

/-- So is what a matrix makes of a part. -/
theorem act_is_met (matrix : Matrix2 R) {origin : BasisState}
    (inside : origin.Inside partition.members) :
    ∃ index, arena.spectators place index ≠ 0 ∧
      matrix.act target controls arena.whole.value index =
        matrix.act target controls partition.state.value origin * arena.spectators place index := by
  obtain ⟨index, covers, part, different⟩ := part_is_met faithful normalized stands inside
  have owned : arena.Owns target := ⟨place, faithful.well_formed.owner_of_member stands member⟩
  have coversFlip : arena.Covers (index.flip target) :=
    (covers_moved owned true true index).2 covers
  have acts (other : BasisState) :
      (⟨partition.state.mixed matrix target controls⟩ : SparseState R).value other =
        matrix.act target controls partition.state.value other :=
    value_mixed partition.state matrix (below target List.mem_cons_self) absent other
  refine ⟨index, different, ?_⟩
  calc
    matrix.act target controls arena.whole.value index =
        matrix.act target controls arena.amplitude index := by
      rw [act_eq, act_eq, value_of_covers faithful.well_formed faithful.is_local covers,
        value_of_covers faithful.well_formed faithful.is_local coversFlip]
    _ = (arena.withState place ⟨partition.state.mixed matrix target controls⟩).amplitude index :=
      (amplitude_with_state faithful stands member within acts index).symm
    _ = matrix.act target controls partition.state.value origin * arena.spectators place index := by
      rw [amplitude_eq_spectators (with_state_stands stands _), spectators_with_state stands, acts,
        part]

/-- A gate that neglects nothing of the product neglects nothing of the partition. -/
theorem prunes_only_zeros_of_whole {gate : Gate R}
    (spares : gate.Spares target controls arena.whole.value) :
    partition.state.PrunesOnlyZeros gate target controls := by
  rcases spares with noMatrix | large
  · intro matrix mixes
    rw [noMatrix] at mixes
    cases mixes
  · have isLocal := faithful.is_local place partition stands
    have accepted : partition.state.applyGate? gate target controls =
        .ok (partition.state.applyGate gate target controls) := by
      refine guarded_ok partition.state (fun slot listed => below slot ?_) _
      rcases List.mem_append.1 listed with control | here
      · exact List.mem_cons_of_mem target control
      · exact List.mem_cons.2 (Or.inl (List.mem_singleton.1 here))
    refine prunes_only_zeros_of_act accepted absent fun origin => ?_
    by_cases nothing : gate.matrix.act target controls partition.state.value origin = 0
    · exact Or.inl nothing
    · have inside : origin.Inside partition.members := by
        by_contra outside
        have here : partition.state.value origin = 0 :=
          value_eq_zero_of_not_stores fun stored => outside (isLocal origin stored)
        have there : partition.state.value (origin.flip target) = 0 :=
          value_eq_zero_of_not_stores fun stored => outside (by
            rw [← BasisState.flip_flip origin target]
            exact BasisState.inside_flip (isLocal _ stored) member)
        apply nothing
        rw [act_eq, here, there, mul_zero, mul_zero, add_zero]
      obtain ⟨index, different, product⟩ :=
        act_is_met faithful normalized stands member within below absent gate.matrix inside
      have made := (large index).resolve_left fun zero =>
        mul_ne_zero nothing different (product.symm.trans zero)
      refine Or.inr (Amplitude.is_kept_of_norm_sq_le made ?_)
      rw [product, Amplitude.norm_sq_mul]
      exact mul_le_of_le_one_right (Amplitude.norm_sq_nonneg _)
        (norm_sq_spectators_le faithful.well_formed normalized place index)

end Gate

end Parts

end Arena

end SparseQuantum
