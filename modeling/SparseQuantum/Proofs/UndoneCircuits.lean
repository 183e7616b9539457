import Mathlib
import SparseQuantum.Proofs.Circuits
import SparseQuantum.Proofs.StoredAmplitudes

/-!
# Undone circuits

The inverse of an accepted change is accepted on what the change left, also when less of it is
stored, and takes the amplitudes back without storing more than there was. So the inverses of a
sequence, in reverse order, restore the amplitudes, as long as nothing but zeros is neglected on
either way.
-/

namespace SparseQuantum

set_option autoImplicit false

variable {R : Type}

/-! ### One change -/

namespace Change

section Accepted

variable [ExactScalar R] {state after middle back : SparseState R} {change : Change R}

theorem apart_inverse (apart : change.Apart) : change.inverse.Apart := by
  cases change <;> exact apart

theorem accepts_inverse (accepted : change.perform? state = .ok after) (apart : change.Apart)
    (within : ∀ index, middle.Stores index → after.Stores index) :
    ∃ back, change.inverse.perform? middle = .ok back := by
  -- What a gate leaves differs at most in its target, which is read last.
  have gates {kind : Gate R} (inverse : Gate R) {target : Nat} {controls : List Nat}
      (accepted : state.applyGate? kind target controls = .ok after) (apart : target ∉ controls) :
      ∃ back, middle.applyGate? inverse target controls = .ok back := by
    have reads := (SparseState.guarded_eq_ok_iff.1 accepted).1
    refine ⟨_, SparseState.guarded_eq_ok_iff.2 ⟨fun index stored => ?_, rfl⟩⟩
    have left := within index stored
    rw [SparseState.accepted_eq accepted] at left
    obtain ⟨origin, source, same | flipped⟩ := SparseState.stores_apply_gate left
    · rw [same]
      exact reads origin source
    · rw [flipped, BasisState.stray_read_flip origin apart]
      exact reads origin source
  cases change with
  | gate kind target controls => exact gates kind.adjoint accepted apart
  | cnot control target controls =>
      change state.applyGate? .x target (control :: controls) = .ok after at accepted
      exact gates .x accepted apart
  | swap first second =>
      obtain ⟨same, reason⟩ := SparseState.swap_accepted accepted
      rcases reason with equal | nothing | inside
      · refine ⟨middle, ?_⟩
        rw [inverse, perform?, SparseState.swap?, if_pos (by simp [equal])]
      · have empty : middle.isEmpty = true := by
          rw [SparseState.is_empty_iff]
          intro index stored
          have left := within index stored
          rw [same, SparseState.swap] at left
          split_ifs at left
          · exact nothing index left
          · obtain ⟨origin, source, _⟩ := SparseState.stores_rekey left
            exact nothing origin source
        refine ⟨middle, ?_⟩
        rw [inverse, perform?, SparseState.swap?, if_pos (by simp [empty])]
      · exact perform_of_inside middle inside

end Accepted

end Change

namespace SparseState

variable [ExactScalar R] {state after middle back : SparseState R} {index : BasisState}

omit [ExactScalar R] in
theorem stores_rekey_iff (state : SparseState R) {move : BasisState → BasisState}
    (returns : ∀ index, move (move index) = index) (index : BasisState) :
    (state.rekey move).Stores index ↔ state.Stores (move index) := by
  rw [Stores, Stores, get_rekey_inverse state returns returns index]

omit [ExactScalar R] in
theorem stores_rekey_back {move : BasisState → BasisState}
    (returns : ∀ index, move (move index) = index)
    (within : ∀ index, middle.Stores index → (state.rekey move).Stores index)
    (stored : (middle.rekey move).Stores index) : state.Stores index := by
  have there := within _ ((stores_rekey_iff middle returns index).1 stored)
  rw [stores_rekey_iff state returns, returns] at there
  exact there

theorem stores_of_same_value (zeroFree : back.ZeroFree)
    (values : back.value index = state.value index) (stored : back.Stores index) :
    state.Stores index := by
  obtain ⟨amplitude, found⟩ := stored
  have here : back.value index = amplitude := by rw [value, found, Option.getD_some]
  by_contra absent
  rw [value_eq_zero_of_not_stores absent, here] at values
  exact zeroFree index amplitude found values

/-- A gate moves and turns what is stored, or leaves only what is not zero. -/
theorem stores_gate_back (gate : Gate R) {target : Nat} {controls : List Nat}
    (apart : target ∉ controls)
    (within : ∀ index, middle.Stores index → (state.applyGate gate target controls).Stores index)
    (values : (middle.applyGate gate.adjoint target controls).value index = state.value index)
    (stored : (middle.applyGate gate.adjoint target controls).Stores index) :
    state.Stores index := by
  cases gate with
  | x => exact stores_rekey_back (BasisState.flip_where_flip_where apart) within stored
  | y | h | rotateX | rotateY | u2 | u3 =>
      exact stores_of_same_value (zero_free_of_amplitudes _) values stored
  | z | s | sAdjoint | t | tAdjoint | phase | rotateZ =>
      exact stores_apply_phase (within index (stores_apply_phase stored))

end SparseState

namespace Change

variable [ExactAngles R] {state after middle back : SparseState R} {change : Change R}

theorem inverse_act (accepted : change.perform? state = .ok after) (apart : change.Apart) :
    change.inverse.act (change.act state.value) = state.value := by
  have gates {kind : Gate R} {target : Nat} {controls : List Nat}
      (accepted : state.applyGate? kind target controls = .ok after) (apart : target ∉ controls) :
      kind.adjoint.matrix.act target controls (kind.matrix.act target controls state.value) =
        state.value := by
    rcases Nat.lt_or_ge target width with inside | outside
    · rw [Matrix2.act_act _ _ inside apart, Gate.matrix_adjoint, Gate.unitary_matrix kind,
        Matrix2.identity_act]
    · have idle := SparseState.idle_of_accepted accepted outside
      rw [SparseState.act_of_idle idle outside, SparseState.act_of_idle idle outside]
  cases change with
  | gate kind target controls => exact gates accepted apart
  | cnot control target controls =>
      change state.applyGate? .x target (control :: controls) = .ok after at accepted
      exact gates accepted apart
  | swap first second =>
      funext index
      change state.value ((index.swap first second).swap first second) = state.value index
      obtain ⟨_, equal | nothing | ⟨firstInside, secondInside⟩⟩ :=
        SparseState.swap_accepted accepted
      · rw [equal, BasisState.swap_self, BasisState.swap_self]
      · rw [SparseState.value_eq_zero_of_not_stores (nothing _),
          SparseState.value_eq_zero_of_not_stores (nothing _)]
      · rw [BasisState.swap_swap index firstInside secondInside]

/-- Where the amplitudes are back, nothing more is stored than before. -/
theorem stores_back (accepted : change.perform? state = .ok after) (apart : change.Apart)
    (within : ∀ index, middle.Stores index → after.Stores index)
    (undone : change.inverse.perform? middle = .ok back) (values : back.value = state.value)
    {index : BasisState} (stored : back.Stores index) : state.Stores index := by
  rw [perform_eq accepted] at within
  rw [perform_eq undone] at values stored
  cases change with
  | gate kind target controls =>
      exact SparseState.stores_gate_back kind apart within (congrFun values index) stored
  | cnot control target controls =>
      exact SparseState.stores_gate_back .x apart within (congrFun values index) stored
  | swap first second =>
      obtain ⟨_, reason⟩ := SparseState.swap_accepted accepted
      simp only [perform, inverse, SparseState.swap] at within stored
      split_ifs at within stored with equal
      · exact within index stored
      · rcases reason with same | nothing | ⟨firstInside, secondInside⟩
        · exact absurd same equal
        · obtain ⟨origin, source, _⟩ := SparseState.stores_rekey stored
          obtain ⟨earlier, start, _⟩ := SparseState.stores_rekey (within origin source)
          exact absurd start (nothing earlier)
        · let move := fun index : BasisState => index.swap first second
          have returns : ∀ index, move (move index) = index :=
            fun index => BasisState.swap_swap index firstInside secondInside
          exact SparseState.stores_rekey_back returns within stored

/-! ### Sequences -/

def undone (changes : List (Change R)) : List (Change R) := (changes.map inverse).reverse

theorem undone_cons (change : Change R) (rest : List (Change R)) :
    undone (change :: rest) = undone rest ++ [change.inverse] := by
  rw [undone, List.map_cons, List.reverse_cons, undone]

theorem run_undone {start after middle : SparseState R} {changes : List (Change R)}
    (apart : ∀ change ∈ changes, change.Apart) (ran : run? start changes = .ok after)
    (keeps : KeepsAll start changes) (values : middle.value = after.value)
    (within : ∀ index, middle.Stores index → after.Stores index)
    (keepsBack : KeepsAll middle (undone changes)) :
    ∃ final, run? middle (undone changes) = .ok final ∧ final.value = start.value ∧
      ∀ index, final.Stores index → start.Stores index := by
  induction changes generalizing start with
  | nil =>
      rw [Except.ok.inj ran]
      exact ⟨middle, rfl, values, within⟩
  | cons change rest induction =>
      obtain ⟨next, here, later⟩ := run_cons.1 ran
      have apartHere := apart change List.mem_cons_self
      rw [undone_cons] at keepsBack ⊢
      obtain ⟨keepsRest, keepsHere⟩ := keeps_all_append.1 keepsBack
      obtain ⟨between, back, nextValues, nextWithin⟩ := induction
        (fun other member => apart other (List.mem_cons_of_mem change member)) later
        (perform_eq here ▸ keeps.2) keepsRest
      rw [← run_eq_foldl back] at keepsHere
      obtain ⟨final, last⟩ := accepts_inverse here apartHere nextWithin
      have restored : final.value = start.value := by
        rw [value_perform last (apart_inverse apartHere) keepsHere.1, nextValues,
          value_perform here apartHere keeps.1, inverse_act here apartHere]
      exact ⟨final, run_append.2 ⟨between, back, run_cons.2 ⟨final, last, rfl⟩⟩, restored,
        fun index stored => stores_back here apartHere nextWithin last restored stored⟩

theorem zero_free_run {start after : SparseState R} {changes : List (Change R)}
    (zeroFree : start.ZeroFree) (ran : run? start changes = .ok after) : after.ZeroFree := by
  induction changes generalizing start with
  | nil => exact Except.ok.inj ran ▸ zeroFree
  | cons change rest induction =>
      obtain ⟨next, here, later⟩ := run_cons.1 ran
      apply induction ?_ later
      rw [perform_eq here]
      cases change with
      | gate kind target controls => exact SparseState.zero_free_apply_gate zeroFree kind _ _
      | cnot control target controls => exact SparseState.zero_free_rekey zeroFree _
      | swap first second =>
          rw [perform, SparseState.swap]
          split_ifs
          · exact zeroFree
          · exact SparseState.zero_free_rekey zeroFree _

/-- Undoing a sequence restores the amplitudes, and a state without stored zeros as it was. -/
theorem undone_restores (start : SparseState R) (changes : List (Change R))
    (apart : ∀ change ∈ changes, change.Apart) :
    (∀ after, run? start changes = .ok after → KeepsAll start changes →
      KeepsAll after (undone changes) →
        ∃ final, run? after (undone changes) = .ok final ∧
          (∀ index, final.value index = start.value index) ∧
          (start.ZeroFree → final = start)) ∧
    ((∀ change ∈ changes, change.Inside) → ∃ after, run? start changes = .ok after) ∧
    ∀ phi lambda : R,
      (Gate.u2 phi lambda).adjoint = .u3 (-Scalar.halfPi) (-lambda) (-phi) ∧
      (Matrix2.u3 (-Scalar.halfPi) (-lambda) (-phi)).mul (.u2 phi lambda) = .identity ∧
      (Matrix2.u2 phi lambda).mul (.u3 (-Scalar.halfPi) (-lambda) (-phi)) = .identity := by
  refine ⟨fun after ran keeps keepsBack => ?_, run_of_inside start, fun phi lambda => ?_⟩
  · obtain ⟨final, back, values, _⟩ := run_undone apart ran keeps rfl (fun _ => id) keepsBack
    refine ⟨final, back, congrFun values, fun zeroFree => ?_⟩
    exact SparseState.ext_value (zero_free_run (zero_free_run zeroFree ran) back) zeroFree
      (congrFun values)
  · have inverse := Matrix2.unitary_u2 phi lambda
    have other := Matrix2.unitary_u3 (-Scalar.halfPi) (-lambda) (-phi)
    rw [Matrix2.Unitary, ← Matrix2.adjoint_u2, Matrix2.adjoint_adjoint] at other
    rw [Matrix2.Unitary] at inverse
    rw [← Matrix2.adjoint_u2]
    exact ⟨rfl, inverse, other⟩

/-! ### A rotation and a controlled phase -/

theorem real_kept_of_half {amplitude : Amplitude ℝ} (half : 1 / 2 ≤ amplitude.normSq) :
    amplitude.isKept = true := by
  rw [Amplitude.is_kept_iff]
  apply le_trans _ half
  change (1 / 10000000000 : ℝ) * (1 / 10000000000) ≤ 1 / 2
  norm_num

theorem keeps_u2_ground (phi lambda : ℝ) :
    (gate (.u2 phi lambda) 0 []).Keeps (SparseState.ground : SparseState ℝ) := by
  have inside : (gate (Gate.u2 phi lambda) 0 []).Inside := by simp [Inside, width]
  obtain ⟨after, accepted⟩ := perform_of_inside (SparseState.ground : SparseState ℝ) inside
  have half : (Scalar.invSqrtTwo : ℝ) * Scalar.invSqrtTwo = 1 / 2 :=
    ExactAngles.inv_sqrt_two_mul_self
  have stays : (Matrix2.u2 phi lambda).a.isKept = true := by
    apply real_kept_of_half
    simp [Amplitude.norm_sq_eq, Matrix2.u2, half]
  have arrives : (Matrix2.u2 phi lambda).c.isKept = true := by
    apply real_kept_of_half
    have turned := Amplitude.norm_sq_polar (R := ℝ) phi
    have scaled : (Matrix2.u2 phi lambda).c.normSq =
        Scalar.invSqrtTwo * Scalar.invSqrtTwo * (Amplitude.polar 1 phi).normSq := by
      simp only [Matrix2.u2, Amplitude.polar, Amplitude.norm_sq_eq]
      ring
    rw [scaled, turned, half, mul_one]
  apply SparseState.prunes_only_zeros_of_act accepted List.not_mem_nil
  intro index
  have other : (BasisState.zero.flip 0).isOne 0 = true := by decide +kernel
  have ground : BasisState.zero.isOne 0 = false := by decide +kernel
  simp only [Gate.matrix, Matrix2.act, SparseState.value_ground, BasisState.allOnes, List.all_nil,
    if_true]
  by_cases one : index.isOne 0 = true
  · have different : index ≠ .zero := fun same => by simp [same, ground] at one
    rw [if_pos one, if_neg different, mul_zero, zero_add]
    split_ifs
    · rw [mul_one]
      exact Or.inr arrives
    · exact Or.inl (mul_zero _)
  · have different : index.flip 0 ≠ .zero := by
      intro same
      rw [← BasisState.flip_flip index 0, same] at one
      exact one other
    rw [if_neg one, if_neg different, mul_zero, add_zero]
    split_ifs
    · rw [mul_one]
      exact Or.inr stays
    · exact Or.inl (mul_zero _)

theorem keeps_u2_back {phi lambda : ℝ} {rotated between : SparseState ℝ}
    (rotates : (gate (.u2 phi lambda) 0 []).perform? .ground = .ok rotated)
    (values : between.value = rotated.value) :
    (gate (.u2 phi lambda) 0 []).inverse.Keeps between := by
  have inside : (gate (Gate.u2 phi lambda) 0 []).inverse.Inside := by simp [inverse, Inside, width]
  obtain ⟨_, accepted⟩ := perform_of_inside between inside
  have restored : (Gate.u2 phi lambda).adjoint.matrix.act 0 [] between.value =
      SparseState.ground.value := by
    rw [values, value_perform rotates List.not_mem_nil (keeps_u2_ground phi lambda)]
    exact inverse_act rotates List.not_mem_nil
  refine SparseState.prunes_only_zeros_of_act accepted List.not_mem_nil fun index => ?_
  rw [restored, SparseState.value_ground]
  split_ifs
  · exact Or.inr (real_kept_of_half (by
      norm_num [Amplitude.norm_sq_eq, Amplitude.one_re, Amplitude.one_im]))
  · exact Or.inl rfl

theorem rotation_undone :
    let changes : List (Change ℝ) := [.gate (.u2 1 2) 0 [], .gate .s 1 [0]]
    (∀ change ∈ changes, change.Apart) ∧ (∀ change ∈ changes, change.Inside) ∧
    ∃ after, run? .ground changes = .ok after ∧ KeepsAll .ground changes ∧
      KeepsAll after (undone changes) ∧ (SparseState.ground : SparseState ℝ).ZeroFree ∧
      run? after (undone changes) = .ok .ground := by
  intro changes
  have apart : ∀ change ∈ changes, change.Apart := by simp [changes, Apart]
  have inside : ∀ change ∈ changes, change.Inside := by simp [changes, Inside, width]
  obtain ⟨restores, accepts, _⟩ := undone_restores .ground changes apart
  obtain ⟨after, ran⟩ := accepts inside
  have turns (kind : Gate ℝ) (turns : kind.mixing? = none) (state : SparseState ℝ) :
      state.PrunesOnlyZeros kind 1 [0] := fun _ mixes => by rw [turns] at mixes; cases mixes
  have keeps : KeepsAll .ground changes := ⟨keeps_u2_ground 1 2, ⟨turns .s rfl _, trivial⟩⟩
  have zeroFree : (SparseState.ground : SparseState ℝ).ZeroFree := SparseState.zero_free_ground
  have keepsBack : KeepsAll after (undone changes) := by
    obtain ⟨rotated, rotates, phases⟩ := run_cons.1 ran
    have phaseApart : ∀ change ∈ [(gate .s 1 [0] : Change ℝ)], change.Apart := by simp [Apart]
    obtain ⟨between, back, values, _⟩ := run_undone phaseApart phases ⟨turns .s rfl _, trivial⟩ rfl
      (fun _ => id) ⟨turns .sAdjoint rfl _, trivial⟩
    have same : between = perform after (gate .sAdjoint 1 [0]) := run_eq_foldl back
    exact ⟨turns .sAdjoint rfl _, ⟨keeps_u2_back rotates (same ▸ values), trivial⟩⟩
  obtain ⟨final, back, _, same⟩ := restores after ran keeps keepsBack
  rw [same zeroFree] at back
  exact ⟨apart, inside, after, ran, keeps, keepsBack, zeroFree, back⟩

end Change

end SparseQuantum
