import Mathlib
import SparseQuantum.Proofs.ConstantAddition
import SparseQuantum.Proofs.ControlledMatrices
import SparseQuantum.Proofs.DumpViews

/-!
# States with renamed positions

Whatever is done to a state commutes with renaming its positions: joining states, gates, adding a
constant and measurements, which choose the same outcome from the same draws. A dump of the renamed
positions is equal. The entries of a renamed state come in another order, so sums over them are
taken in another order, which exact arithmetic does not show.
-/

namespace SparseQuantum

set_option autoImplicit false

variable {R : Type}

namespace BasisState

variable {sigma : Equiv.Perm Nat} (rearranges : Rearranges sigma)

include rearranges

theorem permute_zero : zero.permute sigma = zero := by
  apply ext_is_one
  intro position _
  rw [is_one_permute rearranges, is_one_zero, is_one_zero]

theorem permute_union (left right : BasisState) :
    (left.union right).permute sigma = (left.permute sigma).union (right.permute sigma) := by
  apply ext_is_one
  intro position _
  simp only [is_one_permute rearranges, is_one_union]

theorem permute_flip (index : BasisState) (position : Nat) :
    (index.flip position).permute sigma = (index.permute sigma).flip (sigma position) := by
  apply ext_is_one
  intro other below
  obtain ⟨source, rfl⟩ := sigma.surjective other
  have sourceInside : source < width := by
    have back := lt_width_of_rearranges (rearranges_symm rearranges) below
    rwa [sigma.symm_apply_apply] at back
  rw [is_one_permute_apply rearranges, is_one_flip, is_one_flip, is_one_permute_apply rearranges]
  simp [below, sourceInside]

theorem all_ones_permute (index : BasisState) (positions : List Nat) :
    (index.permute sigma).allOnes (positions.map sigma) = index.allOnes positions := by
  rw [allOnes, allOnes, List.all_map]
  simp only [Function.comp_def, is_one_permute_apply rearranges]

theorem permute_congr {tau : Equiv.Perm Nat} (others : Rearranges tau) {positions : List Nat}
    (same : ∀ position ∈ positions, sigma position = tau position) {index : BasisState}
    (inside : index.Inside positions) : index.permute sigma = index.permute tau := by
  have moved {pi rho : Equiv.Perm Nat} (first : Rearranges pi) (second : Rearranges rho)
      (agree : ∀ position ∈ positions, pi position = rho position) {other : Nat}
      (one : (index.permute pi).isOne other = true) : (index.permute rho).isOne other = true := by
    rw [is_one_permute first] at one
    rw [← pi.apply_symm_apply other, agree _ (inside _ one), is_one_permute_apply second, one]
  apply ext_is_one
  intro other _
  rw [Bool.eq_iff_iff]
  exact ⟨moved rearranges others same, moved others rearranges fun position member =>
    (same position member).symm⟩

theorem permute_add_where {slots : List Nat} (distinct : slots.Nodup)
    (inside : ∀ slot ∈ slots, slot < width) (controls : List Nat) (amount : Int)
    (index : BasisState) :
    (addWhere controls slots amount index).permute sigma =
      addWhere (controls.map sigma) (slots.map sigma) amount (index.permute sigma) := by
  rw [addWhere, addWhere, all_ones_permute rearranges]
  split_ifs
  · exact permute_add_at distinct inside rearranges amount index
  · rfl

end BasisState

namespace SparseState

open BasisState

variable {sigma : Equiv.Perm Nat} (rearranges : Rearranges sigma)

include rearranges

theorem get_permute_apply (state : SparseState R) (index : BasisState) :
    (state.permute sigma).get? (index.permute sigma) = state.get? index := by
  rw [get_permute rearranges, BasisState.permute_permute_symm rearranges]

/-- A state that stores at renamed basis states what another one stores is that one renamed. -/
theorem eq_permute_of_get {state other : SparseState R}
    (same : ∀ index, other.get? (index.permute sigma) = state.get? index) :
    other = state.permute sigma := by
  apply ext_get
  intro index
  rw [get_permute rearranges, ← same, BasisState.permute_symm_permute rearranges]

theorem stores_permute_iff (state : SparseState R) (index : BasisState) :
    (state.permute sigma).Stores index ↔ state.Stores (index.permute sigma.symm) :=
  exists_congr fun _ => by rw [get_permute rearranges]

theorem permute_of_inside {tau : Equiv.Perm Nat} (others : Rearranges tau) {positions : List Nat}
    (same : ∀ position ∈ positions, sigma position = tau position) {state : SparseState R}
    (inside : ∀ index, state.Stores index → index.Inside positions) :
    state.permute sigma = state.permute tau := by
  apply ext_get
  intro index
  apply Option.ext
  intro amplitude
  -- Either side stores at `index` only what is stored where it came from, inside the positions.
  have moved {pi rho : Equiv.Perm Nat} (first : Rearranges pi) (second : Rearranges rho)
      (agree : ∀ position ∈ positions, pi position = rho position)
      (found : (state.permute pi).get? index = some amplitude) :
      (state.permute rho).get? index = some amplitude := by
    rw [get_permute first] at found
    have renamed := permute_congr first second agree (inside _ ⟨amplitude, found⟩)
    rw [BasisState.permute_symm_permute first] at renamed
    rw [renamed, get_permute_apply second, found]
  exact ⟨moved rearranges others same, moved others rearranges fun position member =>
    (same position member).symm⟩

theorem entries_permute {state : SparseState R} {index : BasisState} {amplitude : Amplitude R}
    (entries : state.entries = [(index, amplitude)]) :
    (state.permute sigma).entries = [(index.permute sigma, amplitude)] := by
  have perm := permute_entries_perm rearranges state
  rw [entries] at perm
  exact List.perm_singleton.1 perm

section Joined

variable [Scalar R]

theorem permute_ground : (ground : SparseState R).permute sigma = ground := by
  refine (eq_permute_of_get rearranges fun index => ?_).symm
  rw [get_ground, get_ground]
  have zero_iff : index.permute sigma = .zero ↔ index = .zero := by
    constructor
    · intro same
      exact permute_injective rearranges (same.trans (permute_zero rearranges).symm)
    · intro same
      rw [same, permute_zero rearranges]
  simp only [zero_iff]

theorem permute_tensor {left right : SparseState R}
    (apart : ∀ first second, left.Stores first → right.Stores second →
      first.isDisjoint second = true) :
    (left.permute sigma).tensor (right.permute sigma) = (left.tensor right).permute sigma := by
  have apartRenamed : ∀ first second, (left.permute sigma).Stores first →
      (right.permute sigma).Stores second → first.isDisjoint second = true := by
    intro first second firstStored secondStored
    rw [stores_permute_iff rearranges] at firstStored secondStored
    have disjoint := apart _ _ firstStored secondStored
    rw [is_disjoint_iff] at disjoint ⊢
    intro position
    have here := disjoint (sigma.symm position)
    simp only [is_one_permute (rearranges_symm rearranges), Equiv.symm_symm,
      Equiv.apply_symm_apply] at here
    exact here
  apply eq_permute_of_get rearranges
  intro index
  apply Option.ext
  intro amplitude
  rw [get_tensor_iff apartRenamed, get_tensor_iff apart]
  constructor
  · rintro ⟨first, second, leftAmplitude, rightAmplitude, leftFound, rightFound, joined, product⟩
    rw [get_permute rearranges] at leftFound rightFound
    refine ⟨_, _, _, _, leftFound, rightFound, ?_, product⟩
    rw [← permute_union (rearranges_symm rearranges), joined,
      BasisState.permute_permute_symm rearranges]
  · rintro ⟨first, second, leftAmplitude, rightAmplitude, leftFound, rightFound, joined, product⟩
    refine ⟨first.permute sigma, second.permute sigma, leftAmplitude, rightAmplitude, ?_, ?_, ?_,
      product⟩
    · rw [get_permute_apply rearranges, leftFound]
    · rw [get_permute_apply rearranges, rightFound]
    · rw [← permute_union rearranges, joined]

end Joined

/-! ### Gates -/

section Gates

variable [ExactScalar R]

theorem value_permute (state : SparseState R) (index : BasisState) :
    (state.permute sigma).value (index.permute sigma) = state.value index := by
  rw [value, value, get_permute_apply rearranges]

omit [ExactScalar R] in
theorem permute_flip_target (state : SparseState R) {target : Nat} {controls : List Nat}
    (absent : target ∉ controls) :
    (state.permute sigma).flipTarget (sigma target) (controls.map sigma) =
      (state.flipTarget target controls).permute sigma := by
  have absentRenamed : sigma target ∉ controls.map sigma := by
    rw [List.mem_map_of_injective sigma.injective]
    exact absent
  apply eq_permute_of_get rearranges
  intro index
  have undone := flip_where_flip_where absent
  have undoneRenamed := flip_where_flip_where absentRenamed
  change (rekey _ (flipWhere _ _)).get? _ = (rekey _ (flipWhere _ _)).get? _
  rw [get_rekey_inverse _ undoneRenamed undoneRenamed, get_rekey_inverse _ undone undone,
    flipWhere, flipWhere, all_ones_permute rearranges]
  split_ifs
  · rw [← permute_flip rearranges, get_permute_apply rearranges]
  · exact get_permute_apply rearranges state index

theorem permute_apply_phase (state : SparseState R) (onZero onOne : Option (Amplitude R))
    (target : Nat) (controls : List Nat) :
    (state.permute sigma).applyPhase onZero onOne (sigma target) (controls.map sigma) =
      (state.applyPhase onZero onOne target controls).permute sigma := by
  apply eq_permute_of_get rearranges
  intro index
  rw [get_apply_phase, get_apply_phase, get_permute_apply rearranges, all_ones_permute rearranges,
    is_one_permute_apply rearranges]

theorem permute_apply_matrix (state : SparseState R) (matrix : Matrix2 R) {target : Nat}
    {controls : List Nat} (inside : target < width) (absent : target ∉ controls) :
    (state.permute sigma).applyMatrix matrix (sigma target) (controls.map sigma) =
      (state.applyMatrix matrix target controls).permute sigma := by
  have absentRenamed : sigma target ∉ controls.map sigma := by
    rw [List.mem_map_of_injective sigma.injective]
    exact absent
  apply eq_permute_of_get rearranges
  intro index
  rw [get_apply_matrix _ matrix (lt_width_of_rearranges rearranges inside) absentRenamed,
    get_apply_matrix _ matrix inside absent]
  simp only [Matrix2.act, all_ones_permute rearranges, is_one_permute_apply rearranges,
    ← permute_flip rearranges, value_permute rearranges]

theorem permute_apply_gate (state : SparseState R) (gate : Gate R) {target : Nat}
    {controls : List Nat} (inside : target < width) (absent : target ∉ controls) :
    (state.permute sigma).applyGate gate (sigma target) (controls.map sigma) =
      (state.applyGate gate target controls).permute sigma := by
  cases gate with
  | x => exact permute_flip_target rearranges state absent
  | y | h | rotateX | rotateY | u2 | u3 =>
      exact permute_apply_matrix rearranges state _ inside absent
  | z | s | sAdjoint | t | tAdjoint | phase | rotateZ =>
      exact permute_apply_phase rearranges state _ _ target controls

/-! ### Measurements -/

theorem branch_probability_permute (state : SparseState R) (position : Nat) (outcome : Bool) :
    (state.permute sigma).branchProbability (sigma position) outcome =
      state.branchProbability position outcome := by
  rw [branch_probability_eq, branch_probability_eq, weight,
    Amplitudes.weight_perm (permute_entries_perm rearranges state), weight]
  unfold Amplitudes.weight
  rw [List.filter_map, List.map_map]
  simp only [Function.comp_def, is_one_permute_apply rearranges]

theorem sample_permute (state : SparseState R) (position : Nat) (draws : Draws) :
    (state.permute sigma).sample (sigma position) draws = state.sample position draws := by
  simp only [sample, branch_probability_permute rearranges]

theorem permute_collapse (state : SparseState R) (position : Nat) (outcome reset : Bool) :
    (state.permute sigma).collapse (sigma position) outcome reset =
      (state.collapse position outcome reset).permute sigma := by
  have moved_permute (index : BasisState) :
      moved (sigma position) outcome reset (index.permute sigma) =
        (moved position outcome reset index).permute sigma := by
    unfold moved
    split_ifs
    · exact (permute_flip rearranges index position).symm
    · rfl
  apply eq_permute_of_get rearranges
  intro index
  apply Option.ext
  intro amplitude
  rw [get_collapse_iff, get_collapse_iff, branch_probability_permute rearranges]
  constructor
  · rintro ⟨origin, before, found, bit, same, scaled⟩
    rw [← BasisState.permute_symm_permute rearranges origin] at found bit same
    rw [get_permute_apply rearranges] at found
    rw [is_one_permute_apply rearranges] at bit
    refine ⟨_, before, found, bit, ?_, scaled⟩
    apply permute_injective rearranges
    exact (moved_permute (origin.permute sigma.symm)).symm.trans same
  · rintro ⟨origin, before, found, bit, same, scaled⟩
    refine ⟨origin.permute sigma, before, ?_, ?_, ?_, scaled⟩
    · rw [get_permute_apply rearranges, found]
    · rw [is_one_permute_apply rearranges, bit]
    · exact (moved_permute origin).trans (congrArg (·.permute sigma) same)

end Gates

/-! ### Added constants -/

/-- Where adding moved the amplitudes of a state and of that state renamed, the results are renamed
as well. -/
theorem permute_of_added [Scalar R] {slots live : List Nat} (distinct : slots.Nodup)
    (inside : ∀ slot ∈ slots, slot < width) (apart : List.Disjoint slots live) {amount : Int}
    {state added renamed : SparseState R}
    (moves : ∀ index, added.get? (addWhere live slots amount index) =
      (state.get? index).filter Amplitude.isKept)
    (movesRenamed : ∀ index,
      renamed.get? (addWhere (live.map sigma) (slots.map sigma) amount index) =
        ((state.permute sigma).get? index).filter Amplitude.isKept) :
    renamed = added.permute sigma := by
  apply eq_permute_of_get rearranges
  intro index
  obtain ⟨origin, rfl⟩ := (addition distinct inside apart amount).surjective index
  change renamed.get? ((addWhere live slots amount origin).permute sigma) =
    added.get? (addWhere live slots amount origin)
  rw [permute_add_where rearranges distinct inside, movesRenamed, moves,
    get_permute_apply rearranges]

/-! ### Dumps -/

omit rearranges in
/-- Sorting by a total order forgets the order of a list. -/
theorem merge_sort_eq_of_perm [Scalar R] [Std.TransCmp (Scalar.totalOrder : R → R → Ordering)]
    [Std.LawfulEqCmp (Scalar.totalOrder : R → R → Ordering)] {left right : List (Amplitude R)}
    (perm : left.Perm right) :
    (left.mergeSort fun first second => (first.totalOrder second).isLE) =
      right.mergeSort fun first second => (first.totalOrder second).isLE := by
  have antisymmetric {first second : Amplitude R} (below : (first.totalOrder second).isLE = true)
      (above : (second.totalOrder first).isLE = true) : first = second := by
    have same := Std.OrientedCmp.isLE_antisymm below above
    rw [Amplitude.totalOrder, Ordering.then_eq_eq] at same
    exact Amplitude.ext_parts (Std.LawfulEqCmp.eq_of_compare same.1)
      (Std.LawfulEqCmp.eq_of_compare same.2)
  apply List.Perm.eq_of_pairwise _ (Amplitude.sorted_merge_sort left)
    (Amplitude.sorted_merge_sort right)
  · exact (List.mergeSort_perm left _).trans (perm.trans (List.mergeSort_perm right _).symm)
  · exact fun first second _ _ => antisymmetric

omit rearranges in
/-- States that show the same amplitudes under every pattern have the same dump. -/
theorem dump_eq_of_collected [Scalar R] [Std.TransCmp (Scalar.totalOrder : R → R → Ordering)]
    [Std.LawfulEqCmp (Scalar.totalOrder : R → R → Ordering)] {left right : SparseState R}
    {size : Nat}
    (same : ∀ pattern, (collected left.entries size pattern).Perm
      (collected right.entries size pattern)) : left.dump size = right.dump size := by
  have member_iff (group : DumpGroup R) :
      group ∈ (left.dump size).groups ↔ group ∈ (right.dump size).groups := by
    have nonempty : collected left.entries size group.pattern ≠ [] ↔
        collected right.entries size group.pattern ≠ [] := by
      rw [← List.length_pos_iff, (same group.pattern).length_eq, List.length_pos_iff]
    rw [mem_groups_iff, mem_groups_iff, merge_sort_eq_of_perm (same group.pattern), nonempty]
  have distinct (state : SparseState R) : (state.dump size).groups.Nodup :=
    (groups_ascending state size).imp fun below equal => by
      rw [equal] at below
      exact List.lt_irrefl _ below
  have groups : (left.dump size).groups = (right.dump size).groups := by
    apply List.Perm.eq_of_pairwise _ (groups_ascending left size) (groups_ascending right size)
    · exact (List.perm_ext_iff_of_nodup (distinct left) (distinct right)).2 member_iff
    · exact fun first second _ _ below above => absurd above (List.lt_asymm below)
  rw [dump, dump] at groups ⊢
  exact congrArg (Dump.mk size) groups

theorem dump_permute [Scalar R] [Std.TransCmp (Scalar.totalOrder : R → R → Ordering)]
    [Std.LawfulEqCmp (Scalar.totalOrder : R → R → Ordering)] (state : SparseState R)
    {slots : List Nat} (distinct : slots.Nodup) (inside : ∀ slot ∈ slots, slot < width) :
    ((state.permute sigma).permute
        (Layout.permutation (Layout.swaps (slots.map sigma)))).dump (slots.map sigma).length =
      (state.permute (Layout.permutation (Layout.swaps slots))).dump slots.length := by
  have distinctRenamed : (slots.map sigma).Nodup := distinct.map sigma.injective
  have insideRenamed : ∀ slot ∈ slots.map sigma, slot < width := by
    intro slot member
    obtain ⟨source, listed, same⟩ := List.mem_map.1 member
    rw [← same]
    exact lt_width_of_rearranges rearranges (inside source listed)
  have shows (index : BasisState) (pattern : List Word) :
      (index.permute sigma).Shows (slots.map sigma) pattern ↔ index.Shows slots pattern := by
    simp only [Shows, List.length_map, List.getElem_map, is_one_permute_apply rearranges]
  rw [List.length_map]
  apply dump_eq_of_collected
  intro pattern
  by_cases isPattern : Dump.IsPattern slots.length pattern
  · have renamed := collected_canonical_perm distinctRenamed insideRenamed (state.permute sigma)
      (by rw [List.length_map]; exact isPattern)
    rw [List.length_map] at renamed
    refine renamed.trans (List.Perm.trans ?_
      (collected_canonical_perm distinct inside state isPattern).symm)
    refine (((permute_entries_perm rearranges state).filter _).map _).trans ?_
    rw [List.filter_map, List.map_map]
    apply List.Perm.of_eq
    simp only [Function.comp_def, shows]
  · -- What is no pattern is shown by nothing.
    have nothing (other : SparseState R) : collected other.entries slots.length pattern = [] := by
      rw [collected, List.map_eq_nil_iff, List.filter_eq_nil_iff]
      intro entry _ shown
      apply isPattern
      rw [← of_decide_eq_true shown]
      exact truncate_is_pattern entry.1 (Layout.length_le_width distinct inside)
    rw [nothing, nothing]

end SparseState

end SparseQuantum
