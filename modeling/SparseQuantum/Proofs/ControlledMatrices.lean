import Mathlib
import SparseQuantum.Proofs.GateAction
import SparseQuantum.Proofs.KeptAmplitudes
import SparseQuantum.Proofs.SlotTable

/-!
# Gates as controlled matrices

The reference action of a gate is written out entry by entry: where all controls are 1, the new
amplitude of a basis state combines the old amplitudes of its two variants at the target. Moving
amplitudes, turning phases and mixing amplitudes agree with that one reference as soon as the
stored amplitudes reach the threshold, and amplitudes that fall below it are dropped.
-/

namespace SparseQuantum

set_option autoImplicit false

/-! ### The reference action -/

namespace Matrix2

variable {R : Type} [Scalar R]

/-- The entry in the row of the new value and the column of the old one. -/
def entry (matrix : Matrix2 R) : Bool → Bool → Amplitude R
  | false, false => matrix.a
  | false, true => matrix.b
  | true, false => matrix.c
  | true, true => matrix.d

/-- The amplitudes that the matrix makes of `old` at `target` where all controls are 1. -/
def controlled (matrix : Matrix2 R) (target : Nat) (controls : List Nat)
    (old : BasisState → Amplitude R) (index : BasisState) : Amplitude R :=
  if index.allOnes controls then
    matrix.entry (index.isOne target) false * old (index.set target false) +
      matrix.entry (index.isOne target) true * old (index.set target true)
  else old index

end Matrix2

namespace BasisState

theorem set_is_one (index : BasisState) (position : Nat) :
    index.set position (index.isOne position) = index := by
  apply ext_is_one
  intro other inside
  rw [is_one_set]
  split_ifs with here
  · rw [here.1]
  · rfl

theorem set_not_is_one (index : BasisState) (position : Nat) :
    index.set position (!index.isOne position) = index.flip position := by
  apply ext_is_one
  intro other inside
  rw [is_one_set, is_one_flip]
  by_cases here : position = other
  · simp [here, inside]
  · simp [here]

theorem stray_read_of_outside {index : BasisState} {positions : List Nat} {position : Nat}
    (ones : index.allOnes positions = true) (outside : width ≤ position) :
    ∃ fault, index.strayRead? (positions ++ [position]) = some fault := by
  have read : ∃ fault, index.allOnes? (positions ++ [position]) = .error fault := by
    induction positions with
    | nil => exact ⟨.position position, if_neg (Nat.not_lt_of_le outside)⟩
    | cons first rest induction =>
        rw [allOnes, List.all_cons, Bool.and_eq_true] at ones
        obtain ⟨fault, later⟩ := induction ones.2
        refine ⟨fault, ?_⟩
        rw [List.cons_append, allOnes?, if_pos (lt_width_of_is_one ones.1), if_pos ones.1, later]
  obtain ⟨fault, read⟩ := read
  exact ⟨fault, by rw [strayRead?, read]⟩

end BasisState

variable {R : Type} [ExactScalar R]

namespace Amplitude

theorem not_kept_zero : (0 : Amplitude R).isKept = false :=
  Bool.eq_false_iff.2 fun kept => ne_zero_of_is_kept kept rfl

theorem filter_get_d_zero (found : Option (Amplitude R)) :
    (some (found.getD 0)).filter isKept = found.filter isKept := by
  cases found with
  | none =>
      rw [Option.getD_none, Option.filter_some, not_kept_zero]
      rfl
  | some amplitude => rfl

end Amplitude

theorem Matrix2.controlled_eq_act (matrix : Matrix2 R) (target : Nat) (controls : List Nat)
    (old : BasisState → Amplitude R) (index : BasisState) :
    matrix.controlled target controls old index = matrix.act target controls old index := by
  have here := BasisState.set_is_one index target
  have there := BasisState.set_not_is_one index target
  rw [Matrix2.controlled, Matrix2.act]
  cases one : index.isOne target with
  | true =>
      rw [one] at here there
      rw [here, ← there, add_comm]
      rfl
  | false =>
      rw [one] at here there
      rw [here, ← there]
      rfl

namespace SparseState

/-! ### What is stored afterwards -/

theorem get_of_pruned {state : SparseState R} (pruned : state.Pruned) (index : BasisState) :
    state.get? index = (some (state.value index)).filter Amplitude.isKept := by
  rw [value, Amplitude.filter_get_d_zero, pruned.filter_get]

/-- Mixing drops small amplitudes whatever was stored before. -/
theorem get_apply_matrix (state : SparseState R) (matrix : Matrix2 R) {target : Nat}
    {controls : List Nat} (inside : target < width) (absent : target ∉ controls)
    (index : BasisState) :
    (state.applyMatrix matrix target controls).get? index =
      (some (matrix.act target controls state.value index)).filter Amplitude.isKept := by
  rw [← value_mixed state matrix inside absent index, Amplitude.filter_get_d_zero]
  exact get_of_amplitudes (state.mixed matrix target controls) index

theorem get_apply_gate {state : SparseState R} (pruned : state.Pruned) (gate : Gate R)
    {target : Nat} {controls : List Nat} (inside : target < width) (absent : target ∉ controls)
    (index : BasisState) :
    (state.applyGate gate target controls).get? index =
      (some (gate.matrix.act target controls state.value index)).filter Amplitude.isKept := by
  have kept := get_of_pruned (pruned_apply_gate pruned gate target controls) index
  cases gate with
  | x => rw [kept, applyGate, value_flip_target state absent]
  | y | h | rotateX | rotateY | u2 | u3 => exact get_apply_matrix state _ inside absent index
  | z | s | sAdjoint | t | tAdjoint | phase | rotateZ =>
      rw [kept, applyGate, value_apply_phase]
      rfl

/-! ### Controls that are never all 1 -/

section Idle

variable {state : SparseState R} {controls : List Nat}
  (idle : ∀ index, state.Stores index → index.allOnes controls = false)

include idle

omit [ExactScalar R] in
theorem flip_target_of_idle (target : Nat) : state.flipTarget target controls = state := by
  have stays : state.entries.map (fun entry =>
      (if entry.1.allOnes controls then entry.1.flip target else entry.1, entry.2)) =
      state.entries := by
    refine (List.map_congr_left fun entry member => ?_).trans (List.map_id _)
    rw [if_neg (by simp [idle entry.1 (stores_of_mem_entries member)])]
    rfl
  apply ext_get
  intro index
  rw [flipTarget, rekey, stays, Option.ext_iff]
  intro amplitude
  exact (Amplitudes.get_entries_iff state.entries_distinct index amplitude).trans
    (mem_entries_iff state index amplitude)

theorem apply_phase_of_idle (onZero onOne : Option (Amplitude R)) (target : Nat) :
    state.applyPhase onZero onOne target controls = state := by
  apply ext_get
  intro index
  rw [get_apply_phase]
  cases found : state.get? index with
  | none => rfl
  | some amplitude =>
      rw [Option.map_some, if_neg (by simp [idle index ⟨amplitude, found⟩])]

theorem value_mixed_of_idle (matrix : Matrix2 R) (target : Nat) (index : BasisState) :
    (state.mixed matrix target controls)[index]?.getD 0 = state.value index := by
  have start : (.empty : Amplitudes R)[index]?.getD 0 = 0 := by
    change (∅ : Amplitudes R)[index]?.getD 0 = 0
    rw [Std.ExtTreeMap.getElem?_empty, Option.getD_none]
  have alone : state.entries.map (fun entry =>
      partAt (contributions matrix target controls entry) index) =
      state.entries.map fun entry => if entry.1 = index then entry.2 else 0 := by
    refine List.map_congr_left fun entry member => ?_
    rw [contributions, if_neg (by simp [idle entry.1 (stores_of_mem_entries member)]), partAt,
      List.map_singleton, List.sum_singleton]
  rw [mixed, get_foldl_accumulate, start, zero_add, part_at_flat_map, alone]
  exact sum_entries_at state index id rfl

theorem apply_gate_of_idle (pruned : state.Pruned) (gate : Gate R) (target : Nat) :
    state.applyGate gate target controls = state := by
  have mixes (matrix : Matrix2 R) : state.applyMatrix matrix target controls = state := by
    apply ext_get
    intro index
    rw [get_of_pruned pruned, ← value_mixed_of_idle idle matrix target index,
      Amplitude.filter_get_d_zero]
    exact get_of_amplitudes (state.mixed matrix target controls) index
  cases gate with
  | x => exact flip_target_of_idle idle target
  | y | h | rotateX | rotateY | u2 | u3 => exact mixes _
  | z | s | sAdjoint | t | tAdjoint | phase | rotateZ => exact apply_phase_of_idle idle _ _ target

end Idle

/-- Where a target outside the width is accepted, no basis state looks at it. -/
theorem idle_of_accepted {state after : SparseState R} {gate : Gate R} {target : Nat}
    {controls : List Nat} (accepted : state.applyGate? gate target controls = .ok after)
    (outside : width ≤ target) (index : BasisState) (stored : state.Stores index) :
    index.allOnes controls = false := by
  obtain ⟨amplitude, found⟩ := stored
  by_contra ones
  rw [Bool.not_eq_false] at ones
  obtain ⟨fault, stray⟩ := BasisState.stray_read_of_outside ones outside
  rw [applyGate?, guarded] at accepted
  split at accepted
  · cases accepted
  · next nothing =>
      have none := (List.findSome?_eq_none_iff.1 nothing) (index, amplitude)
        ((mem_entries_iff state index amplitude).2 found)
      rw [stray] at none
      cases none

theorem accepted_eq {state after : SparseState R} {gate : Gate R} {target : Nat}
    {controls : List Nat} (accepted : state.applyGate? gate target controls = .ok after) :
    after = state.applyGate gate target controls := by
  rw [applyGate?, guarded] at accepted
  split at accepted
  · cases accepted
  · exact (Except.ok.inj accepted).symm

/-- Every gate stores the controlled matrix action without the small amplitudes, and positions
inside the width are always accepted. -/
theorem apply_gate_controlled {state : SparseState R} (pruned : state.Pruned) (gate : Gate R)
    {target : Nat} {controls : List Nat} (absent : target ∉ controls) :
    (∀ after, state.applyGate? gate target controls = .ok after → ∀ index,
      after.get? index =
        let amplitude := gate.matrix.controlled target controls state.value index
        if amplitude.isKept then some amplitude else none) ∧
    ((∀ position ∈ target :: controls, position < width) →
      ∃ after, state.applyGate? gate target controls = .ok after) := by
  constructor
  · intro after accepted index
    rw [accepted_eq accepted, Matrix2.controlled_eq_act]
    rcases Nat.lt_or_ge target width with inside | outside
    · rw [get_apply_gate pruned gate inside absent, Option.filter_some]
    · -- the basis state and its flipped variant coincide, and neither is stored with all controls 1
      have idle := idle_of_accepted accepted outside
      have absentWhere : index.allOnes controls = true → state.value index = 0 := by
        intro ones
        rw [value]
        cases found : state.get? index with
        | none => rfl
        | some amplitude =>
            rw [idle index ⟨amplitude, found⟩] at ones
            cases ones
      have alone : gate.matrix.act target controls state.value index = state.value index := by
        have same : index.flip target = index := by
          rw [← BasisState.set_not_is_one, ← BasisState.set_is_one index target]
          apply BasisState.ext_is_one
          intro position inside
          simp [BasisState.is_one_set, show target ≠ position by omega]
        rw [Matrix2.act]
        split_ifs with ones
        · rw [same, absentWhere ones, mul_zero, mul_zero, add_zero]
        · rw [same, absentWhere ones, mul_zero, mul_zero, add_zero]
        · rfl
      rw [apply_gate_of_idle idle pruned, get_of_pruned pruned, alone, Option.filter_some]
  · intro inside
    refine ⟨state.applyGate gate target controls, guarded_ok state (fun position member => ?_) _⟩
    apply inside position
    rw [List.mem_cons, or_comm, ← List.mem_singleton, ← List.mem_append]
    exact member

/-- Position 1 is 1 and all others are 0. -/
noncomputable def secondOne : SparseState ℝ := ground.applyGate .x 1 []

theorem value_second_one (bit : Bool) :
    secondOne.value ((BasisState.ofOnes [1]).set 0 bit) = if bit then 0 else 1 := by
  have returns := BasisState.flip_where_flip_where (List.not_mem_nil (a := 1))
  change ((ground.rekey (·.flipWhere 1 [])).get? _).getD 0 = _
  rw [get_rekey_inverse _ returns returns, get_ground]
  cases bit with
  | false =>
      rw [if_pos (by decide +kernel)]
      rfl
  | true =>
      rw [if_neg (by decide +kernel)]
      rfl

theorem inv_sqrt_two_squared : (1 / √2 * (1 / √2) : ℝ) = 1 / 2 := by
  rw [div_mul_div_comm, one_mul, Real.mul_self_sqrt zero_le_two]

theorem half_kept : (⟨1 / √2, 0⟩ : Amplitude ℝ).isKept = true := by
  apply kept_of_large
  rw [Amplitude.norm_sq_eq, inv_sqrt_two_squared]
  norm_num

/-- A Hadamard gate under a control that is 1. -/
theorem second_one_controlled :
    secondOne.Pruned ∧ 0 ∉ [1] ∧ ∃ after, secondOne.applyGate? .h 0 [1] = .ok after ∧
      ∀ bit, after.get? ((BasisState.ofOnes [1]).set 0 bit) = some ⟨1 / √2, 0⟩ := by
  have pruned : secondOne.Pruned :=
    pruned_apply_gate (pruned_ground real_threshold_le_one) .x 1 []
  have apart : 0 ∉ [1] := by decide
  obtain ⟨action, accepts⟩ := apply_gate_controlled pruned .h apart
  obtain ⟨after, accepted⟩ := accepts (by decide)
  refine ⟨pruned, apart, after, accepted, fun bit => ?_⟩
  have ones : ((BasisState.ofOnes [1]).set 0 bit).allOnes [1] = true := by
    cases bit <;> decide +kernel
  have variant (value : Bool) : ((BasisState.ofOnes [1]).set 0 bit).set 0 value =
      (BasisState.ofOnes [1]).set 0 value := by
    cases bit <;> cases value <;> decide +kernel
  have mixed : (Gate.h : Gate ℝ).matrix.controlled 0 [1] secondOne.value
      ((BasisState.ofOnes [1]).set 0 bit) = ⟨1 / √2, 0⟩ := by
    rw [Matrix2.controlled, if_pos ones, variant, variant, value_second_one, value_second_one,
      if_neg (by decide), if_pos rfl, mul_one, mul_zero, add_zero]
    cases ((BasisState.ofOnes [1]).set 0 bit).isOne 0 <;> rfl
  rw [action after accepted]
  simp only [mixed, half_kept, if_true]

/-! ### Hadamard gates -/

section Evenly

variable {origin : BasisState} {slot : Nat}

noncomputable def evenly (origin : BasisState) (slot : Nat) : List (BasisState × Amplitude ℝ) :=
  [(origin, ⟨if origin.isOne slot then -Scalar.invSqrtTwo else Scalar.invSqrtTwo, 0⟩),
    (origin.flip slot, ⟨Scalar.invSqrtTwo, 0⟩)]

theorem evenly_half {entry : BasisState × Amplitude ℝ} (member : entry ∈ evenly origin slot) :
    entry.2.normSq = 1 / 2 := by
  have half : (Scalar.invSqrtTwo * Scalar.invSqrtTwo : ℝ) = 1 / 2 := inv_sqrt_two_squared
  rcases List.mem_pair.1 member with rfl | rfl
  · rw [Amplitude.norm_sq_eq]
    split_ifs
    · rw [neg_mul_neg, half, mul_zero, add_zero]
    · rw [half, mul_zero, add_zero]
  · rw [Amplitude.norm_sq_eq, half, mul_zero, add_zero]

variable (inside : slot < width)

include inside

theorem ne_flip_of_inside : origin ≠ origin.flip slot := by
  intro same
  have bits := congrArg (fun index => index.isOne slot) same
  simp [BasisState.is_one_flip, inside] at bits

theorem evenly_distinct : Amplitudes.Distinct (evenly origin slot) :=
  List.pairwise_pair.2 (ne_flip_of_inside inside)

theorem get_hadamard_iff {state : SparseState ℝ} (listed : state.entries = [(origin, .one)])
    (index : BasisState) (amplitude : Amplitude ℝ) :
    (state.applyGate .h slot []).get? index = some amplitude ↔
      (index, amplitude) ∈ evenly origin slot := by
  have here : state.value origin = 1 :=
    value_of_get ((mem_entries_iff state origin .one).1 (by simp [listed]))
  have nothing {index : BasisState} (other : index ≠ origin) : state.value index = 0 := by
    by_contra different
    obtain ⟨amplitude, found⟩ := stores_of_value different
    rw [← mem_entries_iff, listed, List.mem_singleton, Prod.mk.injEq] at found
    exact other found.1
  have act (index : BasisState) : (Gate.h : Gate ℝ).matrix.act slot [] state.value index =
      ⟨if index.isOne slot then -Scalar.invSqrtTwo else Scalar.invSqrtTwo, 0⟩ *
        state.value index + ⟨Scalar.invSqrtTwo, 0⟩ * state.value (index.flip slot) := by
    have negated : (Gate.h : Gate ℝ).matrix.d = ⟨-Scalar.invSqrtTwo, 0⟩ :=
      Amplitude.ext_parts rfl neg_zero
    rw [Matrix2.act, BasisState.allOnes, List.all_nil, if_pos rfl, negated]
    split_ifs <;> rfl
  have mixed (index : BasisState) : (state.applyGate .h slot []).get? index =
      (some ((Gate.h : Gate ℝ).matrix.act slot [] state.value index)).filter Amplitude.isKept :=
    get_apply_matrix state _ inside List.not_mem_nil index
  have made : ∀ entry ∈ evenly origin slot,
      (Gate.h : Gate ℝ).matrix.act slot [] state.value entry.1 = entry.2 := by
    intro entry member
    rcases List.mem_pair.1 member with rfl | rfl
    · rw [act, here, nothing (ne_flip_of_inside inside).symm, mul_one, mul_zero, add_zero]
    · rw [act, BasisState.flip_flip, here, nothing (ne_flip_of_inside inside).symm, mul_one,
        mul_zero, zero_add]
  rw [mixed, Option.filter_eq_some_iff, Option.some.injEq]
  constructor
  · rintro ⟨same, kept⟩
    by_cases first : index = origin
    · have listed := made _ List.mem_cons_self
      rw [first] at same ⊢
      rw [← same, listed]
      exact List.mem_cons_self
    · by_cases second : index = origin.flip slot
      · have listed := made _ (List.mem_cons_of_mem _ (List.mem_singleton_self _))
        rw [second] at same ⊢
        rw [← same, listed]
        exact List.mem_cons_of_mem _ (List.mem_singleton_self _)
      · have other : index.flip slot ≠ origin := fun back =>
          second (by rw [← back, BasisState.flip_flip])
        rw [act, nothing first, nothing other, mul_zero, mul_zero, add_zero] at same
        exact absurd same.symm (Amplitude.ne_zero_of_is_kept kept)
  · intro member
    have half : amplitude.normSq = 1 / 2 := evenly_half member
    have large : amplitude.isKept = true := kept_of_large (by rw [half]; norm_num)
    exact ⟨made (index, amplitude) member, large⟩

theorem hadamard_of_single {state : SparseState ℝ} (listed : state.entries = [(origin, .one)]) :
    state.applyGate .h slot [] = ⟨.ofEntries (evenly origin slot)⟩ := by
  apply ext_get
  intro index
  apply Option.ext
  intro amplitude
  rw [get_hadamard_iff inside listed]
  exact (Amplitudes.get_entries_iff (evenly_distinct inside) index amplitude).symm

end Evenly

end SparseState

end SparseQuantum
