import Mathlib
import SparseQuantum.Proofs.StoredAmplitudes

/-!
# Stored amplitudes and the threshold

Which operations on states store only amplitudes that reach the threshold. With exact arithmetic
moving, turning and mixing amplitudes does; joining two states does exactly where the products are
large enough, and measuring does unless the branch has a probability above 1. States from outside
need not have a total probability of 1, and nothing prunes a joined or a measured state.
-/

namespace SparseQuantum

set_option autoImplicit false

namespace SparseState

/-! ### What operations lead to -/

section Obtained

variable {R : Type} [Scalar R]

/-- Every stored amplitude reaches the threshold. -/
def Pruned (state : SparseState R) : Prop :=
  ∀ index amplitude, state.get? index = some amplitude → amplitude.isKept = true

section Pruned

variable {state : SparseState R} (pruned : state.Pruned)

include pruned

/-- Dropping small amplitudes changes nothing where none is stored. -/
theorem Pruned.filter_get (index : BasisState) :
    (state.get? index).filter Amplitude.isKept = state.get? index := by
  cases found : state.get? index with
  | none => rfl
  | some amplitude => rw [Option.filter_some, if_pos (pruned index amplitude found)]

theorem kept_of_mem {entry : BasisState × Amplitude R} (member : entry ∈ state.entries) :
    entry.2.isKept = true :=
  pruned entry.1 entry.2 ((mem_entries_iff state entry.1 entry.2).1 member)

theorem pruned_rekey (move : BasisState → BasisState) : (state.rekey move).Pruned := by
  intro index amplitude found
  obtain ⟨entry, member, same⟩ := List.mem_map.1 (Amplitudes.mem_of_get_entries found)
  rw [Prod.mk.injEq] at same
  rw [← same.2]
  exact kept_of_mem pruned member

end Pruned

/-- States that the operations lead to, with conditions on the states that are joined and on the
outcomes that are measured. -/
inductive Obtained (joins : SparseState R → SparseState R → Prop)
    (measures : SparseState R → Nat → Bool → Prop) : SparseState R → Prop where
  | ground : Obtained joins measures .ground
  | given (amplitudes : Amplitudes R) : Obtained joins measures (.ofAmplitudes amplitudes)
  | replaced {before : SparseState R} (obtained : Obtained joins measures before)
      (amplitudes : Amplitudes R) : Obtained joins measures (before.replace amplitudes)
  | gate {before : SparseState R} (obtained : Obtained joins measures before) (gate : Gate R)
      {target : Nat} {controls : List Nat} (apart : target ∉ controls) :
      Obtained joins measures (before.applyGate gate target controls)
  | cnot {before : SparseState R} (obtained : Obtained joins measures before)
      {control target : Nat} {controls : List Nat} (apart : target ∉ control :: controls) :
      Obtained joins measures (before.cnot control target controls)
  | swap {before : SparseState R} (obtained : Obtained joins measures before)
      (first second : Nat) : Obtained joins measures (before.swap first second)
  | measured {before : SparseState R} (obtained : Obtained joins measures before)
      {position : Nat} {draws : Draws}
      (allowed : measures before position (before.sample position draws).1) :
      Obtained joins measures (before.measure position draws).2.1
  | reset {before : SparseState R} (obtained : Obtained joins measures before)
      {position : Nat} {draws : Draws}
      (allowed : measures before position (before.sample position draws).1) :
      Obtained joins measures (before.measureAndReset position draws).1
  | joined {left right : SparseState R} (leftObtained : Obtained joins measures left)
      (rightObtained : Obtained joins measures right)
      (apart : ∀ first second, left.Stores first → right.Stores second →
        first.isDisjoint second = true)
      (allowed : joins left right) : Obtained joins measures (left.tensor right)

def ProductsKept (left right : SparseState R) : Prop :=
  ∀ first ∈ left.entries, ∀ second ∈ right.entries, (first.2.mul second.2).isKept = true

end Obtained

end SparseState

variable {R : Type} [ExactScalar R]

/-- What the threshold becomes when the branch is scaled up is reached by its amplitudes. -/
def SparseState.BranchKept (state : SparseState R) (position : Nat) (outcome : Bool) : Prop :=
  ∀ entry ∈ state.entries, entry.1.isOne position = outcome →
    Scalar.threshold * Scalar.threshold * state.branchProbability position outcome ≤
      entry.2.normSq

namespace Amplitude

theorem is_kept_iff (value : Amplitude R) :
    value.isKept = true ↔ Scalar.threshold * Scalar.threshold ≤ value.normSq := by
  have positive : (0 : R) ≤ Scalar.threshold := le_of_lt ExactScalar.threshold_pos
  have square := ExactScalar.sqrt_mul_self value.normSq (norm_sq_nonneg value)
  rw [isKept, ExactScalar.is_le_iff, norm, ExactScalar.hypot_eq]
  change Scalar.threshold ≤ Scalar.sqrt value.normSq ↔ _
  rw [mul_self_le_mul_self_iff positive (ExactScalar.sqrt_nonneg value.normSq), square]

theorem is_kept_of_norm_sq_le {small large : Amplitude R} (kept : small.isKept = true)
    (bound : small.normSq ≤ large.normSq) : large.isKept = true := by
  rw [is_kept_iff] at kept ⊢
  exact le_trans kept bound

theorem norm_sq_scale_down (value : Amplitude R) (divisor : R) :
    (value.scaleDown divisor).normSq = value.normSq / (divisor * divisor) := by
  rw [norm_sq_eq, norm_sq_eq, scaleDown]
  ring

end Amplitude

namespace SparseState

/-! ### Operations that keep states pruned -/

theorem pruned_ground (atMostOne : (Scalar.threshold : R) ≤ 1) :
    (ground : SparseState R).Pruned := by
  intro index amplitude found
  rw [get_ground] at found
  split_ifs at found
  have positive : (0 : R) ≤ Scalar.threshold := le_of_lt ExactScalar.threshold_pos
  rw [← Option.some.inj found, Amplitude.is_kept_iff, Amplitude.norm_sq_eq]
  change Scalar.threshold * Scalar.threshold ≤ (1 : R) * 1 + 0 * 0
  rw [mul_one, mul_zero, add_zero]
  exact mul_le_one₀ atMostOne positive atMostOne

theorem pruned_of_amplitudes (amplitudes : Amplitudes R) : (ofAmplitudes amplitudes).Pruned := by
  intro index amplitude found
  rw [get_of_amplitudes, Option.filter_eq_some_iff] at found
  exact found.2

omit [ExactScalar R] in
/-- A collapse keeps different basis states apart, also one that clears the position. -/
theorem distinct_collapse [Scalar R] (state : SparseState R) (position : Nat)
    (outcome reset : Bool) : Amplitudes.Distinct ((state.entries.filter fun entry =>
      entry.1.isOne position == outcome).map fun entry =>
        (if reset && outcome then entry.1.flip position else entry.1,
          entry.2.scaleDown (Scalar.sqrt (state.branchProbability position outcome)))) := by
  unfold Amplitudes.Distinct
  rw [List.pairwise_map]
  refine (state.entries_distinct.sublist List.filter_sublist).imp ?_
  intro first second different same
  apply different
  dsimp only at same
  split_ifs at same
  · rw [← BasisState.flip_flip first.1 position, same, BasisState.flip_flip]
  · exact same

section Changed

variable {state : SparseState R} (pruned : state.Pruned)

include pruned

theorem zero_free_of_pruned : state.ZeroFree :=
  fun index amplitude found => Amplitude.ne_zero_of_is_kept (pruned index amplitude found)

theorem pruned_apply_phase {onZero onOne : Option (Amplitude R)}
    (zeroTurns : ∀ phase ∈ onZero, phase.normSq = 1)
    (oneTurns : ∀ phase ∈ onOne, phase.normSq = 1) (target : Nat) (controls : List Nat) :
    (state.applyPhase onZero onOne target controls).Pruned := by
  intro index amplitude found
  obtain ⟨before, source, turned⟩ := of_get_apply_phase found
  have kept := pruned index before source
  rcases turned with same | ⟨phase, member, same⟩
  · rw [same]
    exact kept
  · have unit : phase.normSq = 1 := member.elim (zeroTurns phase) (oneTurns phase)
    have length : (before.mul phase).normSq = before.normSq * phase.normSq :=
      Amplitude.norm_sq_mul before phase
    rw [unit, mul_one] at length
    rw [same]
    exact Amplitude.is_kept_of_norm_sq_le kept (le_of_eq length.symm)

theorem pruned_apply_gate (gate : Gate R) (target : Nat) (controls : List Nat) :
    (state.applyGate gate target controls).Pruned := by
  have none : ∀ phase ∈ (none : Option (Amplitude R)), phase.normSq = 1 :=
    fun phase member => absurd member (by simp)
  have unit (phase : Amplitude R) (length : phase.normSq = 1) :
      ∀ other ∈ some phase, other.normSq = 1 := by
    intro other member
    rw [← Option.some.inj member]
    exact length
  have polar (angle : R) : ∀ phase ∈ some (Amplitude.polar 1 angle), phase.normSq = 1 :=
    unit _ (Amplitude.norm_sq_polar angle)
  cases gate with
  | x => exact pruned_rekey pruned _
  | y | h | rotateX | rotateY | u2 | u3 => exact pruned_of_amplitudes _
  | z => exact pruned_apply_phase pruned none (unit _ (by simp [Amplitude.norm_sq_eq])) _ _
  | s => exact pruned_apply_phase pruned none (unit _ (by simp [Amplitude.norm_sq_eq])) _ _
  | sAdjoint =>
      exact pruned_apply_phase pruned none (unit _ (by simp [Amplitude.norm_sq_eq])) _ _
  | t => exact pruned_apply_phase pruned none (polar _) _ _
  | tAdjoint => exact pruned_apply_phase pruned none (polar _) _ _
  | phase => exact pruned_apply_phase pruned none (polar _) _ _
  | rotateZ => exact pruned_apply_phase pruned (polar _) (polar _) _ _

theorem pruned_swap (first second : Nat) : (state.swap first second).Pruned := by
  unfold swap
  split_ifs
  · exact pruned
  · exact pruned_rekey pruned _

theorem branch_kept_of_le_one {position : Nat} {outcome : Bool}
    (atMostOne : state.branchProbability position outcome ≤ 1) :
    state.BranchKept position outcome := by
  intro entry member _
  have kept := (Amplitude.is_kept_iff entry.2).1 (kept_of_mem pruned member)
  exact le_trans (mul_le_of_le_one_right (mul_self_nonneg Scalar.threshold) atMostOne) kept

/-- A measured state is pruned exactly where its branch is kept. -/
theorem pruned_collapse_iff (position : Nat) (outcome reset : Bool) :
    (state.collapse position outcome reset).Pruned ↔ state.BranchKept position outcome := by
  have scaled {entry : BasisState × Amplitude R}
      (member : entry ∈ state.entries.filter fun entry => entry.1.isOne position == outcome) :
      (entry.2.scaleDown (Scalar.sqrt (state.branchProbability position outcome))).isKept = true ↔
        Scalar.threshold * Scalar.threshold * state.branchProbability position outcome ≤
          entry.2.normSq := by
    have positive := branch_probability_pos (zero_free_of_pruned pruned) member
    rw [Amplitude.is_kept_iff, Amplitude.norm_sq_scale_down,
      ExactScalar.sqrt_mul_self _ (le_of_lt positive), le_div_iff₀ positive]
  constructor
  · intro collapsed entry member outcomeHere
    have inBranch : entry ∈ state.entries.filter fun entry => entry.1.isOne position == outcome :=
      List.mem_filter.2 ⟨member, beq_iff_eq.2 outcomeHere⟩
    apply (scaled inBranch).1
    apply collapsed (if reset && outcome then entry.1.flip position else entry.1)
    exact (Amplitudes.get_entries_iff (distinct_collapse state position outcome reset) _ _).2
      (List.mem_map.2 ⟨entry, inBranch, rfl⟩)
  · intro branch index amplitude found
    obtain ⟨entry, member, same⟩ := List.mem_map.1 (Amplitudes.mem_of_get_entries found)
    rw [Prod.mk.injEq] at same
    rw [← same.2]
    obtain ⟨stored, outcomeHere⟩ := List.mem_filter.1 member
    exact (scaled member).2 (branch entry stored (beq_iff_eq.1 outcomeHere))

end Changed

/-- Joined states are pruned exactly where all products reach the threshold. -/
theorem pruned_tensor_iff {left right : SparseState R}
    (apart : ∀ first second, left.Stores first → right.Stores second →
      first.isDisjoint second = true) : (left.tensor right).Pruned ↔ ProductsKept left right := by
  constructor
  · intro pruned first member second other
    apply pruned (first.1.union second.1)
    rw [get_tensor_iff apart]
    exact ⟨first.1, second.1, first.2, second.2, (mem_entries_iff left _ _).1 member,
      (mem_entries_iff right _ _).1 other, rfl, rfl⟩
  · intro products index amplitude found
    obtain ⟨first, second, leftAmplitude, rightAmplitude, leftFound, rightFound, _, same⟩ :=
      (get_tensor_iff apart index amplitude).1 found
    rw [← same]
    exact products (first, leftAmplitude) ((mem_entries_iff left _ _).2 leftFound)
      (second, rightAmplitude) ((mem_entries_iff right _ _).2 rightFound)

/-! ### Every state that is obtained -/

/-- Operations store no small amplitude as long as products and measured branches are large enough,
and both conditions are needed. -/
theorem obtained_pruned (atMostOne : (Scalar.threshold : R) ≤ 1) :
    (∀ state : SparseState R, Obtained ProductsKept BranchKept state → state.Pruned) ∧
    (∀ left right : SparseState R, (∀ first second, left.Stores first → right.Stores second →
      first.isDisjoint second = true) → ((left.tensor right).Pruned ↔ ProductsKept left right)) ∧
    (∀ state : SparseState R, state.Pruned → ∀ position outcome reset,
      ((state.collapse position outcome reset).Pruned ↔ state.BranchKept position outcome) ∧
        (state.branchProbability position outcome ≤ 1 → state.BranchKept position outcome)) := by
  refine ⟨?_, fun left right => pruned_tensor_iff, fun state pruned position outcome reset =>
    ⟨pruned_collapse_iff pruned position outcome reset, branch_kept_of_le_one pruned⟩⟩
  intro state obtained
  induction obtained with
  | ground => exact pruned_ground atMostOne
  | given amplitudes => exact pruned_of_amplitudes amplitudes
  | replaced _ amplitudes _ => exact pruned_of_amplitudes amplitudes
  | gate _ gate _ ih => exact pruned_apply_gate ih gate _ _
  | cnot _ _ ih => exact pruned_rekey ih _
  | swap _ first second ih => exact pruned_swap ih first second
  | measured _ allowed ih => exact (pruned_collapse_iff ih _ _ false).2 allowed
  | reset _ allowed ih => exact (pruned_collapse_iff ih _ _ true).2 allowed
  | joined _ _ apart allowed _ _ => exact (pruned_tensor_iff apart).2 allowed

theorem real_threshold_le_one : (Scalar.threshold : ℝ) ≤ 1 := by
  change (1 / 10000000000 : ℝ) ≤ 1
  norm_num

theorem kept_of_large {amplitude : Amplitude ℝ} (large : 1 / 10 ≤ amplitude.normSq) :
    amplitude.isKept = true := by
  rw [Amplitude.is_kept_iff]
  change (1 / 10000000000 : ℝ) * (1 / 10000000000) ≤ _
  linarith

/-- A position that is 0 with probability 9/25 and 1 with probability 16/25. -/
noncomputable def leaning (position : Nat) : SparseState ℝ :=
  .ofAmplitudes (.ofEntries [(.zero, ⟨0.6, 0⟩), (BasisState.zero.flip position, ⟨0, 0.8⟩)])

theorem leaning_stored {position : Nat} (inside : position < width) :
    (leaning position).get? .zero = some ⟨0.6, 0⟩ ∧
      (leaning position).get? (BasisState.zero.flip position) = some ⟨0, 0.8⟩ := by
  have distinct : Amplitudes.Distinct
      [(.zero, (⟨0.6, 0⟩ : Amplitude ℝ)), (BasisState.zero.flip position, ⟨0, 0.8⟩)] := by
    rw [Amplitudes.Distinct, List.pairwise_pair]
    intro same
    have bits := congrArg (fun index => index.isOne position) same
    simp [BasisState.is_one_flip, BasisState.is_one_zero, inside] at bits
  constructor
  · rw [leaning, get_of_amplitudes,
      (Amplitudes.get_entries_iff distinct _ _).2 List.mem_cons_self, Option.filter_some,
      if_pos (kept_of_large (by rw [Amplitude.norm_sq_eq]; norm_num))]
  · rw [leaning, get_of_amplitudes, (Amplitudes.get_entries_iff distinct _ _).2
      (List.mem_cons_of_mem _ List.mem_cons_self), Option.filter_some,
      if_pos (kept_of_large (by rw [Amplitude.norm_sq_eq]; norm_num))]

theorem leaning_entry {position : Nat} {entry : BasisState × Amplitude ℝ}
    (member : entry ∈ (leaning position).entries) :
    (entry.1 = .zero ∨ entry.1 = BasisState.zero.flip position) ∧
      9 / 25 ≤ entry.2.normSq ∧ entry.2.normSq ≤ 1 := by
  have found := (mem_entries_iff _ entry.1 entry.2).1 member
  rw [leaning, get_of_amplitudes, Option.filter_eq_some_iff] at found
  have listed := Amplitudes.mem_of_get_entries found.1
  rcases List.mem_cons.1 listed with first | second
  · rw [Prod.mk.injEq] at first
    rw [first.2, Amplitude.norm_sq_eq]
    exact ⟨.inl first.1, by norm_num⟩
  · have same := List.mem_singleton.1 second
    rw [Prod.mk.injEq] at same
    rw [same.2, Amplitude.norm_sq_eq]
    exact ⟨.inr same.1, by norm_num⟩

theorem leaning_pair_apart (first second : BasisState) (left : (leaning 0).Stores first)
    (right : (leaning 1).Stores second) : first.isDisjoint second = true := by
  obtain ⟨leftAmplitude, leftFound⟩ := left
  obtain ⟨rightAmplitude, rightFound⟩ := right
  have here := (leaning_entry ((mem_entries_iff _ first leftAmplitude).2 leftFound)).1
  have there := (leaning_entry ((mem_entries_iff _ second rightAmplitude).2 rightFound)).1
  rcases here with same | same <;> rcases there with other | other <;>
    · dsimp only at same other
      rw [same, other]
      decide +kernel

theorem leaning_product {left right : BasisState × Amplitude ℝ}
    (first : left ∈ (leaning 0).entries) (second : right ∈ (leaning 1).entries) :
    1 / 10 ≤ (left.2.mul right.2).normSq ∧ (left.2.mul right.2).normSq ≤ 1 := by
  obtain ⟨_, leftLarge, leftSmall⟩ := leaning_entry first
  obtain ⟨_, rightLarge, rightSmall⟩ := leaning_entry second
  have product : (left.2.mul right.2).normSq = left.2.normSq * right.2.normSq :=
    Amplitude.norm_sq_mul left.2 right.2
  rw [product]
  constructor <;> nlinarith

theorem leaning_pair_entry {entry : BasisState × Amplitude ℝ}
    (member : entry ∈ ((leaning 0).tensor (leaning 1)).entries) :
    1 / 10 ≤ entry.2.normSq ∧ entry.2.normSq ≤ 1 := by
  have found := (mem_entries_iff _ entry.1 entry.2).1 member
  obtain ⟨first, second, left, right, leftFound, rightFound, _, same⟩ :=
    (get_tensor_iff leaning_pair_apart entry.1 entry.2).1 found
  rw [← same]
  exact leaning_product ((mem_entries_iff _ first left).2 leftFound)
    ((mem_entries_iff _ second right).2 rightFound)

theorem length_leaning_le (position : Nat) : (leaning position).entries.length ≤ 2 := by
  rw [length_entries]
  exact le_trans Std.ExtTreeMap.size_filter_le_size Std.ExtTreeMap.size_ofList_le

theorem length_leaning_pair_le : ((leaning 0).tensor (leaning 1)).entries.length ≤ 2 * 2 := by
  have pairs : ((leaning 0).entries.flatMap fun first => (leaning 1).entries.map fun second =>
      (first.1.union second.1, first.2.mul second.2)).length =
      (leaning 0).entries.length * (leaning 1).entries.length := by
    simp [List.length_flatMap]
  rw [length_entries]
  refine le_trans Std.ExtTreeMap.size_ofList_le (le_of_eq_of_le pairs ?_)
  exact Nat.mul_le_mul (length_leaning_le 0) (length_leaning_le 1)

theorem leaning_pair_branch_le (position : Nat) (outcome : Bool) :
    ((leaning 0).tensor (leaning 1)).branchProbability position outcome ≤ 4 := by
  let branch := ((leaning 0).tensor (leaning 1)).entries.filter fun entry =>
    entry.1.isOne position == outcome
  have small : ∀ weight ∈ branch.map (·.2.normSq), weight ≤ 1 := by
    intro weight source
    obtain ⟨entry, member, same⟩ := List.mem_map.1 source
    rw [← same]
    exact (leaning_pair_entry (List.mem_of_mem_filter member)).2
  have few : branch.length ≤ 4 :=
    le_trans (List.length_filter_le _ _) length_leaning_pair_le
  have bound := List.sum_le_card_nsmul _ 1 small
  rw [List.length_map, nsmul_eq_mul, mul_one] at bound
  rw [branchProbability, total, ← List.sum_eq_foldl]
  exact le_trans bound (by exact_mod_cast few)

/-- However the first of two leaning positions is measured, no amplitude is lost. -/
theorem leaning_pair_pruned :
    Obtained ProductsKept BranchKept (((leaning 0).tensor (leaning 1)).measure 0 (.ofSeed 7)).2.1 ∧
      (((leaning 0).tensor (leaning 1)).measure 0 (.ofSeed 7)).2.1.Pruned := by
  have products : ProductsKept (leaning 0) (leaning 1) :=
    fun _ first _ second => kept_of_large (leaning_product first second).1
  have joined : Obtained ProductsKept BranchKept ((leaning 0).tensor (leaning 1)) :=
    .joined (.given _) (.given _) leaning_pair_apart products
  have branch (outcome : Bool) : ((leaning 0).tensor (leaning 1)).BranchKept 0 outcome := by
    intro entry member _
    have large := (leaning_pair_entry member).1
    have share := leaning_pair_branch_le 0 outcome
    change (1 / 10000000000 : ℝ) * (1 / 10000000000) * _ ≤ _
    linarith
  have obtained : Obtained ProductsKept BranchKept
      (((leaning 0).tensor (leaning 1)).measure 0 (.ofSeed 7)).2.1 := joined.measured (branch _)
  exact ⟨obtained, (obtained_pruned real_threshold_le_one).1 _ obtained⟩

/-- A position that is nearly 0, with an amplitude for 1 that is small but stored. -/
def nearlyZero (position : Nat) : SparseState Float :=
  .ofAmplitudes (.ofEntries [(.zero, ⟨1, 0⟩), (BasisState.zero.flip position, ⟨1e-6, 0⟩)])

/-- Both positions are 1 with an amplitude that is stored and yet below the threshold. -/
theorem joined_pair_not_pruned :
    Obtained (fun _ _ => True) (fun _ _ _ => True) ((nearlyZero 0).tensor (nearlyZero 1)) ∧
      ¬((nearlyZero 0).tensor (nearlyZero 1)).Pruned := by
  have keys : ∀ first ∈ (nearlyZero 0).entries.map (·.1),
      ∀ second ∈ (nearlyZero 1).entries.map (·.1), first.isDisjoint second = true := by
    decide +kernel
  have both : (((nearlyZero 0).tensor (nearlyZero 1)).get?
      ((BasisState.zero.flip 0).flip 1)).map Amplitude.isKept = some false := by
    decide +kernel
  constructor
  · refine .joined (.given _) (.given _) ?_ trivial
    rintro first second ⟨left, inLeft⟩ ⟨right, inRight⟩
    apply keys
    · exact List.mem_map.2 ⟨(first, left), (mem_entries_iff _ first left).2 inLeft, rfl⟩
    · exact List.mem_map.2 ⟨(second, right), (mem_entries_iff _ second right).2 inRight, rfl⟩
  · intro pruned
    obtain ⟨amplitude, found, small⟩ := Option.map_eq_some_iff.1 both
    rw [pruned _ amplitude found] at small
    cases small

end SparseState

end SparseQuantum
