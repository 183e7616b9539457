import Mathlib
import SparseQuantum.Proofs.KeptAmplitudes
import SparseQuantum.Proofs.StoredAmplitudes

/-!
# Branches of a measurement

The two branches of a state share its total probability, and the one that is chosen has some of it,
so something is stored there. Collapsing keeps the amplitudes of that branch, scaled up to a total
probability of 1, and moves them to 0 after a reset.
-/

namespace SparseQuantum

set_option autoImplicit false

variable {R : Type} [ExactScalar R]

/-! ### Probabilities -/

/-- The probability of the entries that are picked. -/
def Amplitudes.weight (entries : List (BasisState × Amplitude R)) (pick : BasisState → Bool) : R :=
  ((entries.filter fun entry => pick entry.1).map (·.2.normSq)).sum

theorem Amplitudes.weight_cons (entry : BasisState × Amplitude R)
    (rest : List (BasisState × Amplitude R)) (pick : BasisState → Bool) :
    weight (entry :: rest) pick =
      (if pick entry.1 then entry.2.normSq else 0) + weight rest pick := by
  unfold weight
  rw [List.filter_cons]
  split_ifs
  · rw [List.map_cons, List.sum_cons]
  · rw [zero_add]

/-- The probability does not depend on the order of the entries. -/
theorem Amplitudes.weight_perm {first second : List (BasisState × Amplitude R)}
    (same : first.Perm second) (pick : BasisState → Bool) :
    weight first pick = weight second pick :=
  ((same.filter _).map _).sum_eq

omit [ExactScalar R] in
/-- The entries of a state that is built from different basis states, up to their order. -/
theorem Amplitudes.entries_perm {entries : List (BasisState × Amplitude R)}
    (distinct : Amplitudes.Distinct entries) :
    (⟨.ofEntries entries⟩ : SparseState R).entries.Perm entries := by
  have nodup {entries : List (BasisState × Amplitude R)} (distinct : Distinct entries) :
      entries.Nodup := distinct.imp fun different same => different (congrArg Prod.fst same)
  rw [List.perm_ext_iff_of_nodup (nodup (SparseState.entries_distinct _)) (nodup distinct)]
  intro entry
  rw [← get_entries_iff distinct]
  exact SparseState.mem_entries_iff _ entry.1 entry.2

namespace SparseState

omit [ExactScalar R] in
/-- Basis states that stay apart when they are moved take their amplitudes along. -/
theorem rekey_entries_perm (state : SparseState R) {move : BasisState → BasisState}
    (injective : Function.Injective move) :
    (state.rekey move).entries.Perm
      (state.entries.map fun entry => (move entry.1, entry.2)) :=
  Amplitudes.entries_perm (distinct_rekey fun _ _ _ _ same => injective same)

omit [ExactScalar R] in
theorem size_rekey (state : SparseState R) {move : BasisState → BasisState}
    (injective : Function.Injective move) : (state.rekey move).size = state.size := by
  rw [← length_entries, (state.rekey_entries_perm injective).length_eq, List.length_map,
    length_entries]

/-- The probability of the basis states that are picked. -/
def weight (state : SparseState R) (pick : BasisState → Bool) : R :=
  Amplitudes.weight state.entries pick

theorem branch_probability_eq (state : SparseState R) (position : Nat) (outcome : Bool) :
    state.branchProbability position outcome =
      state.weight fun index => index.isOne position == outcome := by
  rw [branchProbability, total, weight, Amplitudes.weight, List.sum_eq_foldl]

theorem total_probability_eq (state : SparseState R) :
    state.totalProbability = state.weight fun _ => true := by
  rw [totalProbability, total, weight, Amplitudes.weight, List.filter_true, List.sum_eq_foldl]

theorem weight_nonneg (state : SparseState R) (pick : BasisState → Bool) :
    0 ≤ state.weight pick := by
  apply List.sum_nonneg
  intro value member
  obtain ⟨entry, _, same⟩ := List.mem_map.1 member
  rw [← same]
  exact Amplitude.norm_sq_nonneg entry.2

theorem stores_of_weight {state : SparseState R} {pick : BasisState → Bool}
    (possible : state.weight pick ≠ 0) : ∃ index, state.Stores index ∧ pick index = true := by
  by_contra nothing
  apply possible
  have none : (state.entries.filter fun entry => pick entry.1) = [] := by
    rw [List.filter_eq_nil_iff]
    intro entry member picked
    exact nothing ⟨entry.1, stores_of_mem_entries member, picked⟩
  rw [weight, Amplitudes.weight, none]
  rfl

theorem total_eq_branches (state : SparseState R) (position : Nat) :
    state.totalProbability =
      state.branchProbability position false + state.branchProbability position true := by
  rw [total_probability_eq, branch_probability_eq, branch_probability_eq]
  unfold weight
  induction state.entries with
  | nil => simp [Amplitudes.weight]
  | cons entry rest ih =>
      simp only [Amplitudes.weight_cons, ih]
      cases entry.1.isOne position with
      | false => simp [add_assoc]
      | true => simp [add_left_comm]

theorem total_probability_pos {state : SparseState R} (zeroFree : state.ZeroFree)
    {index : BasisState} (stored : state.Stores index) : 0 < state.totalProbability := by
  obtain ⟨amplitude, found⟩ := stored
  have member := (mem_entries_iff state index amplitude).2 found
  -- The branch of the entry's first position has probability, and the other one not less than 0.
  have here : 0 < state.branchProbability 0 (index.isOne 0) :=
    branch_probability_pos zeroFree (List.mem_filter.2 ⟨member, beq_self_eq_true _⟩)
  have least (outcome : Bool) : 0 ≤ state.branchProbability 0 outcome := by
    rw [branch_probability_eq]
    exact weight_nonneg state _
  rw [total_eq_branches state 0]
  cases one : index.isOne 0 with
  | false =>
      rw [one] at here
      exact add_pos_of_pos_of_nonneg here (least true)
  | true =>
      rw [one] at here
      exact add_pos_of_nonneg_of_pos (least false) here

/-- The outcome that is chosen has probability, whatever is drawn. -/
theorem sampled_branch {state : SparseState R} {position : Nat} {draws rest : Draws} {bit : Bool}
    (possible : state.totalProbability ≠ 0) (sampled : state.sample position draws = (bit, rest)) :
    state.branchProbability position bit ≠ 0 := by
  intro nothing
  have zero_iff (value : R) : Scalar.isZero value = true ↔ value = 0 :=
    ExactScalar.is_eq_iff value 0
  have sum := total_eq_branches state position
  simp only [sample] at sampled
  by_cases noZero : state.branchProbability position false = 0
  · rw [if_pos ((zero_iff _).2 noZero)] at sampled
    cases sampled
    rw [noZero, nothing, add_zero] at sum
    exact possible sum
  · rw [if_neg (mt (zero_iff _).1 noZero)] at sampled
    by_cases noOne : state.branchProbability position true = 0
    · rw [if_pos ((zero_iff _).2 noOne)] at sampled
      cases sampled
      exact noZero nothing
    · cases bit with
      | false => exact noZero nothing
      | true => exact noOne nothing

theorem stores_of_branch {state : SparseState R} {position : Nat} {outcome : Bool}
    (possible : state.branchProbability position outcome ≠ 0) :
    ∃ index, state.Stores index ∧ index.isOne position = outcome := by
  rw [branch_probability_eq] at possible
  obtain ⟨index, stored, picked⟩ := stores_of_weight possible
  exact ⟨index, stored, beq_iff_eq.1 picked⟩

def keys (state : SparseState R) : List BasisState := state.entries.map (·.1)

omit [ExactScalar R] in
theorem stores_iff_mem_keys (state : SparseState R) (index : BasisState) :
    state.Stores index ↔ index ∈ state.keys := by
  constructor
  · rintro ⟨amplitude, found⟩
    exact List.mem_map.2 ⟨(index, amplitude), (mem_entries_iff state _ _).2 found, rfl⟩
  · intro member
    obtain ⟨entry, source, same⟩ := List.mem_map.1 member
    rw [← same]
    exact stores_of_mem_entries source

/-! ### Collapsed states -/

theorem get_collapse_iff (state : SparseState R) (position : Nat) (outcome reset : Bool)
    (index : BasisState) (amplitude : Amplitude R) :
    (state.collapse position outcome reset).get? index = some amplitude ↔
      ∃ origin before, state.get? origin = some before ∧ origin.isOne position = outcome ∧
        (if reset && outcome then origin.flip position else origin) = index ∧
        before.scaleDown (Scalar.sqrt (state.branchProbability position outcome)) = amplitude := by
  refine (Amplitudes.get_entries_iff (distinct_collapse state position outcome reset) index
    amplitude).trans ?_
  rw [List.mem_map]
  constructor
  · rintro ⟨entry, member, same⟩
    rw [List.mem_filter, beq_iff_eq] at member
    rw [Prod.mk.injEq] at same
    exact ⟨entry.1, entry.2, (mem_entries_iff state _ _).1 member.1, member.2, same.1, same.2⟩
  · rintro ⟨origin, before, found, bit, moved, scaled⟩
    refine ⟨(origin, before), ?_, by rw [moved, scaled]⟩
    rw [List.mem_filter, beq_iff_eq]
    exact ⟨(mem_entries_iff state _ _).2 found, bit⟩

/-- Without a reset the branch stays where it is. -/
theorem stores_collapse_iff (state : SparseState R) (position : Nat) (outcome : Bool)
    (index : BasisState) :
    (state.collapse position outcome false).Stores index ↔
      state.Stores index ∧ index.isOne position = outcome := by
  constructor
  · intro stored
    obtain ⟨origin, source, bit, same⟩ := stores_collapse stored
    rw [Bool.false_and, if_neg Bool.false_ne_true] at same
    rw [same]
    exact ⟨source, bit⟩
  · rintro ⟨⟨before, found⟩, bit⟩
    exact ⟨_, (get_collapse_iff state position outcome false index _).2
      ⟨index, before, found, bit, rfl, rfl⟩⟩

/-- Where a branch is moved; moving it twice puts it back. -/
def moved (position : Nat) (outcome reset : Bool) (index : BasisState) : BasisState :=
  if reset && outcome then index.flip position else index

theorem moved_moved (position : Nat) (outcome reset : Bool) (index : BasisState) :
    moved position outcome reset (moved position outcome reset index) = index := by
  unfold moved
  split_ifs
  · exact BasisState.flip_flip index position
  · rfl

theorem is_one_moved_iff {position : Nat} (inside : position < width) (outcome reset : Bool)
    (index : BasisState) :
    (moved position outcome reset index).isOne position = outcome ↔
      index.isOne position = (outcome && !reset) := by
  unfold moved
  cases reset with
  | false => simp
  | true =>
      cases outcome with
      | false => simp
      | true => simp [BasisState.is_one_flip_self index inside]

/-- Half of the basis states are left, each with what its origin had. -/
theorem value_collapse (state : SparseState R) {position : Nat} (inside : position < width)
    (outcome reset : Bool) (index : BasisState) :
    (state.collapse position outcome reset).value index =
      if index.isOne position = (outcome && !reset) then
        (state.value (moved position outcome reset index)).scaleDown
          (Scalar.sqrt (state.branchProbability position outcome))
      else 0 := by
  cases found : (state.collapse position outcome reset).get? index with
  | some amplitude =>
      obtain ⟨origin, before, source, bit, same, scaled⟩ :=
        (get_collapse_iff state position outcome reset index amplitude).1 found
      have back : moved position outcome reset index = origin := by
        rw [← same]
        exact moved_moved position outcome reset origin
      rw [value_of_get found, back, value_of_get source, scaled,
        if_pos ((is_one_moved_iff inside outcome reset index).1 (by rw [back, bit]))]
  | none =>
      rw [value, found, Option.getD_none]
      by_cases bit : index.isOne position = (outcome && !reset)
      · -- If the origin had an amplitude, something would have been found.
        rw [if_pos bit]
        cases source : state.get? (moved position outcome reset index) with
        | none =>
            rw [value, source, Option.getD_none]
            exact Amplitude.ext_parts (zero_div _).symm (zero_div _).symm
        | some before =>
            have stored := (get_collapse_iff state position outcome reset index _).2
              ⟨_, before, source, (is_one_moved_iff inside outcome reset index).2 bit,
                moved_moved position outcome reset index, rfl⟩
            rw [found] at stored
            cases stored
      · rw [if_neg bit]

/-- A collapsed state has total probability 1 again. -/
theorem total_probability_collapse {state : SparseState R} {position : Nat} {outcome : Bool}
    (possible : state.branchProbability position outcome ≠ 0) (reset : Bool) :
    (state.collapse position outcome reset).totalProbability = 1 := by
  let norm := Scalar.sqrt (state.branchProbability position outcome)
  have square : norm * norm = state.branchProbability position outcome := by
    apply ExactScalar.sqrt_mul_self
    rw [branch_probability_eq]
    exact weight_nonneg state _
  have scaled (entries : List (BasisState × Amplitude R)) :
      Amplitudes.weight (entries.map fun entry =>
          (moved position outcome reset entry.1, entry.2.scaleDown norm)) (fun _ => true) =
        Amplitudes.weight entries (fun _ => true) / (norm * norm) := by
    induction entries with
    | nil => simp [Amplitudes.weight]
    | cons entry rest ih =>
        rw [List.map_cons, Amplitudes.weight_cons, Amplitudes.weight_cons, ih, if_pos rfl,
          if_pos rfl, Amplitude.norm_sq_scale_down, add_div]
  have branch : Amplitudes.weight (state.entries.filter fun entry =>
      entry.1.isOne position == outcome) (fun _ => true) =
        state.branchProbability position outcome := by
    rw [branch_probability_eq, weight, Amplitudes.weight, Amplitudes.weight, List.filter_true]
  have perm := Amplitudes.entries_perm (distinct_collapse state position outcome reset)
  rw [total_probability_eq]
  have whole : Amplitudes.weight (state.entries.filter fun entry =>
      entry.1.isOne position == outcome) (fun _ => true) / (norm * norm) = 1 := by
    rw [branch, square, div_self possible]
  exact (Amplitudes.weight_perm perm _).trans ((scaled _).trans whole)

theorem norm_sq_of_only {state : SparseState R} {only : BasisState}
    (stored : ∀ index, state.Stores index → index = only) :
    (state.value only).normSq = state.totalProbability := by
  have distinct := state.entries_distinct
  rw [total_probability_eq, weight]
  cases listed : state.entries with
  | nil =>
      have absent : state.get? only = none := by
        cases found : state.get? only with
        | none => rfl
        | some amplitude =>
            have member := (mem_entries_iff state only amplitude).2 found
            rw [listed] at member
            cases member
      rw [value, absent, Option.getD_none, (Amplitude.norm_sq_eq_zero_iff 0).2 rfl]
      rfl
  | cons entry rest =>
      have here (other : BasisState × Amplitude R) (member : other ∈ entry :: rest) :
          other.1 = only := by
        rw [← listed] at member
        exact stored other.1 (stores_of_mem_entries member)
      have alone : rest = [] := by
        rw [listed] at distinct
        apply List.eq_nil_iff_forall_not_mem.2
        intro other member
        exact (List.pairwise_cons.1 distinct).1 other member ((here entry List.mem_cons_self).trans
          (here other (List.mem_cons_of_mem entry member)).symm)
      have found : state.get? only = some entry.2 := by
        rw [← mem_entries_iff, listed, ← here entry List.mem_cons_self]
        exact List.mem_cons_self
      rw [value_of_get found, alone, Amplitudes.weight_cons, if_pos rfl]
      exact (add_zero _).symm

end SparseState

namespace Simulator

def withDraws (simulator : Simulator R) (draws : Draws) : Simulator R := { simulator with draws }

theorem WellFormed.with_draws {simulator : Simulator R} (wellFormed : simulator.WellFormed)
    (draws : Draws) : (simulator.withDraws draws).WellFormed := { wellFormed with }

end Simulator

end SparseQuantum
