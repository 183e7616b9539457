import Mathlib
import SparseQuantum.Proofs.Branches
import SparseQuantum.Proofs.UndoneCircuits

/-!
# Preserved probability

A unitary matrix keeps the probability of every pair of basis states that differ in its target, and
an exchange permutes the basis states. So a sequence of changes keeps the total probability, apart
from what is neglected on the way, which only takes from it.
-/

namespace SparseQuantum

set_option autoImplicit false

/-! ### The sum over all basis states -/

namespace BasisState

noncomputable instance : Fintype BasisState :=
  Fintype.ofInjective (fun index (position : Fin width) => index.isOne position) fun _ _ same =>
    ext_is_one fun position inside => congrFun same ⟨position, inside⟩

end BasisState

namespace Amplitude

variable {R : Type} [ExactScalar R]

theorem conj_add (left right : Amplitude R) : (left + right).conj = left.conj + right.conj :=
  ext_parts rfl (neg_add _ _)

theorem conj_mul (left right : Amplitude R) : (left * right).conj = left.conj * right.conj := by
  apply ext_parts
  · simp only [conj, mul_re]
    ring
  · simp only [conj, mul_im]
    ring

end Amplitude

namespace SparseState

variable {R : Type} [ExactScalar R]

theorem weight_eq_sum (state : SparseState R) (pick : BasisState → Bool) :
    state.weight pick = ∑ index, if pick index then (state.value index).normSq else 0 := by
  have nodup : (state.keys.filter pick).Nodup := by
    apply List.Nodup.filter
    rw [keys, List.Nodup, List.pairwise_map]
    exact state.entries_distinct
  have listed : (state.entries.filter fun entry => pick entry.1).map (·.2.normSq) =
      (state.keys.filter pick).map fun index => (state.value index).normSq := by
    rw [keys, List.filter_map, List.map_map]
    refine List.map_congr_left fun entry member => ?_
    have found := (mem_entries_iff state entry.1 entry.2).1 (List.mem_filter.1 member).1
    rw [Function.comp_apply, value, found, Option.getD_some]
  rw [weight, Amplitudes.weight, listed, ← List.sum_toFinset _ nodup, ← Finset.sum_filter]
  refine Finset.sum_subset (fun index member => ?_) fun index picked absent => ?_
  · rw [List.mem_toFinset, List.mem_filter] at member
    exact Finset.mem_filter.2 ⟨Finset.mem_univ index, member.2⟩
  · have missing : ¬state.Stores index := by
      intro stored
      apply absent
      rw [List.mem_toFinset, List.mem_filter]
      exact ⟨(stores_iff_mem_keys state index).1 stored, (Finset.mem_filter.1 picked).2⟩
    rw [value_eq_zero_of_not_stores missing]
    exact (Amplitude.norm_sq_eq_zero_iff 0).2 rfl

theorem total_probability_eq_sum (state : SparseState R) :
    state.totalProbability = ∑ index, (state.value index).normSq := by
  rw [total_probability_eq, weight_eq_sum]
  rfl

end SparseState

/-! ### What a change makes of the sum -/

namespace Matrix2

variable {R : Type} [ExactScalar R]

/-- The probability of a pair of amplitudes. -/
theorem norm_sq_pair {matrix : Matrix2 R} (unitary : matrix.Unitary) (zero one : Amplitude R) :
    (matrix.a * zero + matrix.b * one).normSq + (matrix.d * one + matrix.c * zero).normSq =
      zero.normSq + one.normSq := by
  have a : matrix.a.conj * matrix.a + matrix.c.conj * matrix.c = 1 := congrArg Matrix2.a unitary
  have b : matrix.a.conj * matrix.b + matrix.c.conj * matrix.d = 0 := congrArg Matrix2.b unitary
  have c : matrix.b.conj * matrix.a + matrix.d.conj * matrix.c = 0 := congrArg Matrix2.c unitary
  have d : matrix.b.conj * matrix.b + matrix.d.conj * matrix.d = 1 := congrArg Matrix2.d unitary
  have pair : (matrix.a * zero + matrix.b * one).conj * (matrix.a * zero + matrix.b * one) +
      (matrix.d * one + matrix.c * zero).conj * (matrix.d * one + matrix.c * zero) =
      zero.conj * zero + one.conj * one := by
    simp only [Amplitude.conj_add, Amplitude.conj_mul]
    linear_combination (zero.conj * zero) * a + (zero.conj * one) * b + (one.conj * zero) * c +
      (one.conj * one) * d
  simp only [Amplitude.conj_mul_self] at pair
  exact congrArg Amplitude.re pair

theorem sum_act {matrix : Matrix2 R} (unitary : matrix.Unitary) {target : Nat}
    {controls : List Nat} (inside : target < width) (absent : target ∉ controls)
    (amplitude : BasisState → Amplitude R) :
    ∑ index, (matrix.act target controls amplitude index).normSq =
      ∑ index, (amplitude index).normSq := by
  -- Every pair is met twice, from either side.
  have both (weight : BasisState → R) :
      ∑ index, (weight index + weight (index.flip target)) = 2 * ∑ index, weight index := by
    have flipped : Function.Involutive fun index : BasisState => index.flip target :=
      fun index => BasisState.flip_flip index target
    rw [Finset.sum_add_distrib, two_mul]
    congr 1
    exact Equiv.sum_comp flipped.toPerm weight
  have pairs (index : BasisState) : (matrix.act target controls amplitude index).normSq +
      (matrix.act target controls amplitude (index.flip target)).normSq =
      (amplitude index).normSq + (amplitude (index.flip target)).normSq := by
    simp only [act, BasisState.all_ones_flip index absent, BasisState.flip_flip,
      BasisState.is_one_flip_self index inside]
    cases index.allOnes controls with
    | false => rfl
    | true =>
        cases index.isOne target with
        | false =>
            simpa using norm_sq_pair unitary (amplitude index) (amplitude (index.flip target))
        | true =>
            rw [add_comm, add_comm (amplitude index).normSq]
            simpa using norm_sq_pair unitary (amplitude (index.flip target)) (amplitude index)
  have doubled := both fun index => (matrix.act target controls amplitude index).normSq
  rw [Finset.sum_congr rfl fun index _ => pairs index, both] at doubled
  exact (mul_left_cancel₀ two_ne_zero doubled).symm

end Matrix2

namespace Change

variable {R : Type} [ExactAngles R] {state after : SparseState R} {change : Change R}

theorem sum_act (accepted : change.perform? state = .ok after) (apart : change.Apart) :
    ∑ index, (change.act state.value index).normSq = ∑ index, (state.value index).normSq := by
  have gates {kind : Gate R} {target : Nat} {controls : List Nat}
      (accepted : state.applyGate? kind target controls = .ok after) (apart : target ∉ controls) :
      ∑ index, (kind.matrix.act target controls state.value index).normSq =
        ∑ index, (state.value index).normSq := by
    rcases Nat.lt_or_ge target width with inside | outside
    · exact Matrix2.sum_act kind.unitary_matrix inside apart state.value
    · rw [SparseState.act_of_idle (SparseState.idle_of_accepted accepted outside) outside]
  cases change with
  | gate kind target controls => exact gates accepted apart
  | cnot control target controls =>
      change state.applyGate? .x target (control :: controls) = .ok after at accepted
      exact gates accepted apart
  | swap first second =>
      obtain ⟨_, equal | nothing | ⟨firstInside, secondInside⟩⟩ :=
        SparseState.swap_accepted accepted
      · simp only [act, equal, BasisState.swap_self]
      · simp only [act, SparseState.value_eq_zero_of_not_stores (nothing _)]
      · have exchange : Function.Involutive fun index : BasisState => index.swap first second :=
          fun index => BasisState.swap_swap index firstInside secondInside
        exact Equiv.sum_comp exchange.toPerm fun index => (state.value index).normSq

theorem probability_perform_le (accepted : change.perform? state = .ok after)
    (apart : change.Apart) : after.totalProbability ≤ state.totalProbability := by
  rw [SparseState.total_probability_eq_sum, SparseState.total_probability_eq_sum,
    ← sum_act accepted apart]
  apply Finset.sum_le_sum
  intro index _
  rcases value_perform_or_zero accepted apart index with acted | neglected
  · rw [acted]
  · rw [neglected, (Amplitude.norm_sq_eq_zero_iff 0).2 rfl]
    exact Amplitude.norm_sq_nonneg _

theorem probability_perform (accepted : change.perform? state = .ok after)
    (apart : change.Apart) (keeps : change.Keeps state) :
    after.totalProbability = state.totalProbability := by
  rw [SparseState.total_probability_eq_sum, SparseState.total_probability_eq_sum,
    ← sum_act accepted apart, value_perform accepted apart keeps]

/-! ### Sequences -/

/-- Gates and exchanges never add probability, and take none where only zeros are neglected. -/
theorem probability_preserved (start : SparseState R) (changes : List (Change R))
    (apart : ∀ change ∈ changes, change.Apart) :
    (∀ after, run? start changes = .ok after →
      after.totalProbability ≤ start.totalProbability ∧
      (KeepsAll start changes → after.totalProbability = start.totalProbability)) ∧
    ((∀ change ∈ changes, change.Inside) → ∃ after, run? start changes = .ok after) := by
  refine ⟨fun after ran => ?_, run_of_inside start⟩
  induction changes generalizing start with
  | nil =>
      rw [Except.ok.inj ran]
      exact ⟨le_rfl, fun _ => rfl⟩
  | cons change rest induction =>
      obtain ⟨next, here, later⟩ := run_cons.1 ran
      have apartHere := apart change List.mem_cons_self
      obtain ⟨bound, exactly⟩ := induction next
        (fun other member => apart other (List.mem_cons_of_mem change member)) later
      refine ⟨bound.trans (probability_perform_le here apartHere), fun keeps => ?_⟩
      rw [← probability_perform here apartHere keeps.1]
      exact exactly (perform_eq here ▸ keeps.2)

theorem rotation_preserved :
    let changes : List (Change ℝ) := [.gate (.u2 1 2) 0 [], .cnot 0 1 [], .swap 0 2]
    (∀ change ∈ changes, change.Apart) ∧ (∀ change ∈ changes, change.Inside) ∧
    ∃ after, run? .ground changes = .ok after ∧ KeepsAll .ground changes ∧
      after.totalProbability = (SparseState.ground : SparseState ℝ).totalProbability := by
  intro changes
  have apart : ∀ change ∈ changes, change.Apart := by simp [changes, Apart]
  have inside : ∀ change ∈ changes, change.Inside := by simp [changes, Inside, width]
  obtain ⟨preserves, accepts⟩ := probability_preserved .ground changes apart
  obtain ⟨after, ran⟩ := accepts inside
  have keeps : KeepsAll .ground changes := ⟨keeps_u2_ground 1 2, ⟨trivial, ⟨trivial, trivial⟩⟩⟩
  exact ⟨apart, inside, after, ran, keeps, (preserves after ran).2 keeps⟩

end Change

end SparseQuantum
