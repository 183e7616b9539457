import Mathlib
import SparseQuantum.Proofs.Branches
import SparseQuantum.Proofs.Circuits

/-!
# Measuring is projective

A measurement chooses an outcome that has probability, draws only if both have, and keeps exactly
the branch of that outcome, scaled to a total probability of 1. The other branch is empty from then
on, so measuring again needs no draw, gives the same bit and changes nothing.
-/

namespace SparseQuantum

set_option autoImplicit false

variable {R : Type} [ExactScalar R]

theorem Scalar.is_zero_iff (value : R) : Scalar.isZero value = true ↔ value = 0 :=
  ExactScalar.is_eq_iff value 0

theorem Scalar.sqrt_one : Scalar.sqrt (1 : R) = 1 := by
  have square : Scalar.sqrt (1 : R) * Scalar.sqrt 1 = 1 :=
    ExactScalar.sqrt_mul_self 1 zero_le_one
  rcases mul_self_eq_one_iff.1 square with one | negative
  · exact one
  · have nonneg : 0 ≤ Scalar.sqrt (1 : R) := ExactScalar.sqrt_nonneg 1
    rw [negative] at nonneg
    exact absurd nonneg (not_le_of_gt (neg_lt_zero.2 zero_lt_one))

theorem Amplitude.scale_down_one (value : Amplitude R) : value.scaleDown 1 = value :=
  Amplitude.ext_parts (div_one value.re) (div_one value.im)

theorem Draws.next_ne (draws : Draws) : draws.next.2 ≠ draws := by
  intro same
  have taken := congrArg Draws.taken same
  exact Nat.succ_ne_self draws.taken taken

namespace SparseState

variable {state : SparseState R} {position : Nat}

/-- Both outcomes have probability, so that the choice between them is open. -/
def Undecided (state : SparseState R) (position : Nat) : Prop :=
  state.branchProbability position false ≠ 0 ∧ state.branchProbability position true ≠ 0

/-- The choice takes the next draw where it is open, and none otherwise. -/
theorem sample_draws (state : SparseState R) (position : Nat) (draws : Draws) :
    (state.Undecided position → (state.sample position draws).2 = draws.next.2) ∧
      (¬state.Undecided position → (state.sample position draws).2 = draws) := by
  have zero_iff (outcome : Bool) := Scalar.is_zero_iff (state.branchProbability position outcome)
  unfold sample Undecided
  by_cases noZero : state.branchProbability position false = 0
  · rw [if_pos ((zero_iff false).2 noZero)]
    exact ⟨fun both => absurd noZero both.1, fun _ => rfl⟩
  · rw [if_neg (mt (zero_iff false).1 noZero)]
    by_cases noOne : state.branchProbability position true = 0
    · rw [if_pos ((zero_iff true).2 noOne)]
      exact ⟨fun both => absurd noOne both.2, fun _ => rfl⟩
    · rw [if_neg (mt (zero_iff true).1 noOne)]
      exact ⟨fun _ => rfl, fun decided => absurd ⟨noZero, noOne⟩ decided⟩

/-- Where only one outcome has probability, it is chosen and the draws are left alone. -/
theorem sample_of_decided {outcome : Bool}
    (impossible : state.branchProbability position (!outcome) = 0)
    (possible : state.branchProbability position outcome ≠ 0) (draws : Draws) :
    state.sample position draws = (outcome, draws) := by
  have zero_iff (outcome : Bool) := Scalar.is_zero_iff (state.branchProbability position outcome)
  unfold sample
  cases outcome with
  | true => rw [if_pos ((zero_iff false).2 impossible)]
  | false =>
      rw [if_neg (mt (zero_iff false).1 possible), if_pos ((zero_iff true).2 impossible)]

/-! ### A collapsed state -/

theorem branch_probability_collapse_not (outcome : Bool) :
    (state.collapse position outcome false).branchProbability position (!outcome) = 0 := by
  by_contra possible
  obtain ⟨index, stored, bit⟩ := stores_of_branch possible
  rw [((stores_collapse_iff state position outcome index).1 stored).2] at bit
  exact (Bool.eq_not_self outcome).1 bit

section Chosen

variable {outcome : Bool} (possible : state.branchProbability position outcome ≠ 0)

include possible

theorem branch_probability_collapse :
    (state.collapse position outcome false).branchProbability position outcome = 1 := by
  have whole := total_eq_branches (state.collapse position outcome false) position
  rw [total_probability_collapse possible] at whole
  cases outcome with
  | false =>
      have other : (state.collapse position false false).branchProbability position true = 0 :=
        branch_probability_collapse_not false
      rw [whole, other, add_zero]
  | true =>
      have other : (state.collapse position true false).branchProbability position false = 0 :=
        branch_probability_collapse_not true
      rw [whole, other, zero_add]

theorem collapse_collapse :
    (state.collapse position outcome false).collapse position outcome false =
      state.collapse position outcome false := by
  apply ext_get
  intro index
  apply Option.ext
  intro amplitude
  rw [get_collapse_iff, branch_probability_collapse possible, Scalar.sqrt_one]
  constructor
  · rintro ⟨origin, before, found, _, rfl, rfl⟩
    rw [Amplitude.scale_down_one]
    exact found
  · intro found
    obtain ⟨_, _, _, bit, rfl, _⟩ := (get_collapse_iff _ _ _ _ _ _).1 found
    exact ⟨_, amplitude, found, bit, rfl, Amplitude.scale_down_one amplitude⟩

theorem measure_collapse (draws : Draws) :
    (state.collapse position outcome false).measure position draws =
      (outcome, state.collapse position outcome false, draws) := by
  have certain := (branch_probability_collapse possible).trans_ne one_ne_zero
  rw [measure, sample_of_decided (branch_probability_collapse_not outcome) certain]
  dsimp only
  rw [collapse_collapse possible]

end Chosen

/-! ### Measuring -/

theorem get_collapsed_iff (state : SparseState R) (position : Nat) (outcome : Bool)
    (index : BasisState) (amplitude : Amplitude R) :
    (state.collapse position outcome false).get? index = some amplitude ↔
      index.isOne position = outcome ∧ ∃ before, state.get? index = some before ∧
        amplitude = before.scaleDown (Scalar.sqrt (state.branchProbability position outcome)) := by
  rw [get_collapse_iff]
  constructor
  · rintro ⟨_, before, found, bit, rfl, scaled⟩
    exact ⟨bit, before, found, scaled.symm⟩
  · rintro ⟨bit, before, found, scaled⟩
    exact ⟨index, before, found, bit, rfl, scaled.symm⟩

/-- If an outcome has probability at all, measuring gives one that has, draws once exactly if both
have, and leaves what had the outcome before, divided by the square root of its probability, with a
total of 1. Measuring again gives the same bit, draws nothing and leaves the same. -/
theorem measurement_projective {state : SparseState R} {position : Nat}
    (possible : ¬(state.branchProbability position false = 0 ∧
      state.branchProbability position true = 0)) (draws : Draws) :
    ∃ bit after rest, state.measure position draws = (bit, after, rest) ∧
      (position < width → state.measure? position draws = .ok (bit, after, rest)) ∧
      state.branchProbability position bit ≠ 0 ∧
      (rest = draws.next.2 ↔ state.Undecided position) ∧
      (rest = draws ↔ ¬state.Undecided position) ∧
      (∀ index amplitude, after.get? index = some amplitude ↔
        index.isOne position = bit ∧ ∃ before, state.get? index = some before ∧
          amplitude = before.scaleDown (Scalar.sqrt (state.branchProbability position bit))) ∧
      after.isEmpty = false ∧ after.totalProbability = 1 ∧
      ∀ later : Draws, after.measure position later = (bit, after, later) ∧
        (position < width → after.measure? position later = .ok (bit, after, later)) := by
  rcases sampled : state.sample position draws with ⟨bit, rest⟩
  have measured : state.measure position draws =
      (bit, state.collapse position bit false, rest) := by
    rw [measure, sampled]
  have guarded (state : SparseState R) (draws : Draws) (inside : position < width) :
      state.measure? position draws = .ok (state.measure position draws) := by
    apply guarded_ok
    intro other member
    rw [List.mem_singleton.1 member]
    exact inside
  have total : state.totalProbability ≠ 0 := by
    intro nothing
    have least (outcome : Bool) : 0 ≤ state.branchProbability position outcome := by
      rw [branch_probability_eq]
      exact weight_nonneg state _
    rw [total_eq_branches state position,
      add_eq_zero_iff_of_nonneg (least false) (least true)] at nothing
    exact possible nothing
  have chosen := sampled_branch total sampled
  obtain ⟨index, stored, bitHere⟩ := stores_of_branch chosen
  have drawn := sample_draws state position draws
  rw [sampled] at drawn
  have again := measure_collapse chosen
  have kept := (stores_collapse_iff state position bit index).2 ⟨stored, bitHere⟩
  refine ⟨bit, _, rest, measured, fun inside => ?_, chosen, ⟨fun next => ?_, drawn.1⟩,
    ⟨fun same both => ?_, drawn.2⟩, get_collapsed_iff state position bit,
    Bool.eq_false_iff.2 fun empty => (is_empty_iff _).1 empty index kept,
    total_probability_collapse chosen false, fun later => ⟨again later, fun inside => ?_⟩⟩
  · rw [guarded state draws inside, measured]
  · by_contra decided
    exact draws.next_ne (next.symm.trans (drawn.2 decided))
  · exact draws.next_ne ((drawn.1 both).symm.trans same)
  · rw [guarded _ later inside, again later]

noncomputable def tilted : SparseState Real :=
  ⟨.ofEntries [(.zero, ⟨5 / 13, 0⟩), (BasisState.zero.flip 1, ⟨0, 12 / 13⟩)]⟩

theorem tilted_branch_probability (outcome : Bool) :
    tilted.branchProbability 1 outcome = if outcome then 144 / 169 else 25 / 169 := by
  have clear : BasisState.zero.isOne 1 = false := BasisState.is_one_zero 1
  have set : (BasisState.zero.flip 1).isOne 1 = true := by decide
  have distinct : Amplitudes.Distinct
      [(.zero, (⟨5 / 13, 0⟩ : Amplitude Real)), (BasisState.zero.flip 1, ⟨0, 12 / 13⟩)] := by
    rw [Amplitudes.Distinct, List.pairwise_pair]
    intro same
    have bits := congrArg (fun index => index.isOne 1) same
    rw [clear, set] at bits
    cases bits
  rw [branch_probability_eq, weight, tilted,
    Amplitudes.weight_perm (Amplitudes.entries_perm distinct), Amplitudes.weight_cons,
    Amplitudes.weight_cons, clear, set, Amplitude.norm_sq_eq, Amplitude.norm_sq_eq,
    Amplitudes.weight]
  cases outcome <;> norm_num

/-- Both outcomes are open, and the one that is drawn stays. -/
theorem tilted_measured_again : tilted.Undecided 1 ∧ ∃ bit after,
    tilted.measure? 1 (.ofSeed 7) = .ok (bit, after, (Draws.ofSeed 7).next.2) ∧
      after.totalProbability = 1 ∧
      after.measure? 1 (.ofSeed 7) = .ok (bit, after, .ofSeed 7) := by
  have zero : tilted.branchProbability 1 false ≠ 0 := by
    rw [tilted_branch_probability]
    norm_num
  have one : tilted.branchProbability 1 true ≠ 0 := by
    rw [tilted_branch_probability]
    norm_num
  obtain ⟨bit, after, rest, _, measured, _, drawn, _, _, _, total, again⟩ :=
    measurement_projective (fun none => zero none.1) (.ofSeed 7)
  rw [drawn.2 ⟨zero, one⟩] at measured
  exact ⟨⟨zero, one⟩, bit, after, measured (by decide), total, (again _).2 (by decide)⟩

end SparseState

end SparseQuantum
