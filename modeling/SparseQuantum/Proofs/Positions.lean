import Mathlib
import SparseQuantum.BasisState.Bits

/-!
# Where a basis state is 1

A basis state lies inside a list of positions when it is 0 everywhere else. Two states that lie
inside lists without a common position are disjoint, and the union of disjoint states determines
both of them. Positions are rearranged by permutations that leave everything at or above the width
where it is; the swap of two positions is the rearrangement by their transposition.
-/

namespace SparseQuantum.BasisState

set_option autoImplicit false

theorem lt_width_of_is_one {index : BasisState} {position : Nat}
    (one : index.isOne position = true) : position < width := by
  by_contra outside
  rw [is_one_eq_false_of_width_le index (Nat.le_of_not_lt outside)] at one
  exact absurd one (by decide)

/-! ### Inside a list of positions -/

/-- Every 1 of the state stands at one of `positions`. -/
def Inside (index : BasisState) (positions : List Nat) : Prop :=
  ∀ position, index.isOne position = true → position ∈ positions

theorem inside_zero (positions : List Nat) : zero.Inside positions := by
  intro position one
  rw [is_one_zero] at one
  exact absurd one (by decide)

theorem inside_union {left right : BasisState} {positions others : List Nat}
    (leftInside : left.Inside positions) (rightInside : right.Inside others) :
    (left.union right).Inside (positions ++ others) := by
  intro position one
  rw [is_one_union, Bool.or_eq_true] at one
  rcases one with one | one
  · exact List.mem_append_left _ (leftInside position one)
  · exact List.mem_append_right _ (rightInside position one)

theorem inside_flip {index : BasisState} {positions : List Nat} {place : Nat}
    (inside : index.Inside positions) (member : place ∈ positions) :
    (index.flip place).Inside positions := by
  intro position one
  by_cases here : place = position
  · rw [← here]
    exact member
  · rw [is_one_flip] at one
    exact inside position (by simpa [here] using one)

/-! ### Disjoint states -/

theorem is_disjoint_iff (left right : BasisState) :
    left.isDisjoint right = true ↔
      ∀ position, ¬(left.isOne position = true ∧ right.isOne position = true) := by
  have words : left.isDisjoint right = true ↔
      ∀ index, index < wordCount → left.word index &&& right.word index = 0 := by
    simp only [isDisjoint, Vector.all_eq_true, Vector.getElem_zipWith, beq_iff_eq]
    refine forall_congr' fun index => forall_congr' fun inside => ?_
    simp [word, inside]
  rw [words]
  constructor
  · intro clear position both
    have inside : position / wordBits < wordCount :=
      div_lt_word_count.2 (lt_width_of_is_one both.1)
    have bit := congrArg (fun value : Word => value.getLsbD (position % wordBits))
      (clear (position / wordBits) inside)
    simp only [isOne] at both
    simp [both.1, both.2] at bit
  · intro apart index inside
    apply BitVec.eq_of_getLsbD_eq
    intro bit below
    have place := apart (wordBits * index + bit)
    have words : (wordBits * index + bit) / wordBits = index := by
      simp only [wordBits] at *
      omega
    have bits : (wordBits * index + bit) % wordBits = bit := by
      simp only [wordBits] at *
      omega
    simp only [isOne, words, bits] at place
    simpa using place

theorem is_disjoint_of_inside {left right : BasisState} {positions others : List Nat}
    (leftInside : left.Inside positions) (rightInside : right.Inside others)
    (apart : List.Disjoint positions others) : left.isDisjoint right = true := by
  rw [is_disjoint_iff]
  intro position both
  exact apart (leftInside position both.1) (rightInside position both.2)

theorem union_comm (left right : BasisState) : left.union right = right.union left := by
  apply ext_is_one
  intro position _
  rw [is_one_union, is_one_union, Bool.or_comm]

private theorem left_of_same_union {left right left' right' : BasisState}
    (same : left.union right = left'.union right') (apart : left.isDisjoint right' = true)
    (apart' : left'.isDisjoint right = true) : left = left' := by
  rw [is_disjoint_iff] at apart apart'
  apply ext_is_one
  intro position _
  have bits := congrArg (fun index => index.isOne position) same
  have clear := apart position
  have clear' := apart' position
  simp only [is_one_union] at bits
  cases one : left.isOne position <;> cases one' : left'.isOne position <;>
    simp_all

theorem eq_of_same_union {left right left' right' : BasisState}
    (same : left.union right = left'.union right') (apart : left.isDisjoint right' = true)
    (apart' : left'.isDisjoint right = true) : left = left' ∧ right = right' := by
  have turned (first second : BasisState) (disjoint : first.isDisjoint second = true) :
      second.isDisjoint first = true := by
    rw [is_disjoint_iff] at disjoint ⊢
    exact fun position both => disjoint position both.symm
  refine ⟨left_of_same_union same apart apart', ?_⟩
  rw [union_comm left, union_comm left'] at same
  exact left_of_same_union same (turned _ _ apart') (turned _ _ apart)

/-! ### Restricted and rearranged positions -/

theorem is_one_foldl_set (positions : List Nat) (start : BasisState) (position : Nat) :
    (positions.foldl (fun index place => index.set place true) start).isOne position =
      (start.isOne position || decide (position ∈ positions ∧ position < width)) := by
  induction positions generalizing start with
  | nil => simp
  | cons place rest induction =>
      rw [List.foldl_cons, induction, is_one_set]
      by_cases here : place = position
      · subst here
        by_cases inside : place < width <;> simp [inside]
      · simp [here, Ne.symm here]

def ofBits (bits : Nat → Bool) : BasisState := ofOnes ((List.range width).filter bits)

theorem is_one_of_bits (bits : Nat → Bool) (position : Nat) :
    (ofBits bits).isOne position = (bits position && decide (position < width)) := by
  rw [ofBits, ofOnes, is_one_foldl_set, is_one_zero, Bool.false_or]
  by_cases inside : position < width <;> simp [inside]

def restrict (index : BasisState) (positions : List Nat) : BasisState :=
  ofBits fun position => index.isOne position && decide (position ∈ positions)

theorem is_one_restrict (index : BasisState) (positions : List Nat) (position : Nat) :
    (index.restrict positions).isOne position =
      (index.isOne position && decide (position ∈ positions)) := by
  rw [restrict, is_one_of_bits]
  by_cases inside : position < width
  · simp [inside]
  · simp [is_one_eq_false_of_width_le index (Nat.le_of_not_lt inside)]

theorem inside_restrict (index : BasisState) (positions : List Nat) :
    (index.restrict positions).Inside positions := by
  intro position one
  rw [is_one_restrict, Bool.and_eq_true, decide_eq_true_eq] at one
  exact one.2

theorem restrict_of_inside {index : BasisState} {positions : List Nat}
    (inside : index.Inside positions) : index.restrict positions = index := by
  apply ext_is_one
  intro position _
  rw [is_one_restrict]
  cases one : index.isOne position with
  | false => rfl
  | true => simp [inside position one]

theorem restrict_restrict {index : BasisState} {positions others : List Nat}
    (fewer : positions ⊆ others) :
    (index.restrict others).restrict positions = index.restrict positions := by
  apply ext_is_one
  intro position _
  rw [is_one_restrict, is_one_restrict, is_one_restrict]
  by_cases member : position ∈ positions
  · simp [member, fewer member]
  · simp [member]

theorem restrict_nil (index : BasisState) : index.restrict [] = zero := by
  apply ext_is_one
  intro position _
  rw [is_one_restrict, is_one_zero]
  simp

theorem restrict_append (index : BasisState) (positions others : List Nat) :
    index.restrict (positions ++ others) =
      (index.restrict positions).union (index.restrict others) := by
  apply ext_is_one
  intro position _
  rw [is_one_union, is_one_restrict, is_one_restrict, is_one_restrict]
  cases index.isOne position <;> simp

theorem restrict_union_left {left right : BasisState} {positions others : List Nat}
    (leftInside : left.Inside positions) (rightInside : right.Inside others)
    (apart : List.Disjoint positions others) : (left.union right).restrict positions = left := by
  apply ext_is_one
  intro position _
  rw [is_one_restrict, is_one_union]
  by_cases member : position ∈ positions
  · have clear : right.isOne position = false :=
      Bool.eq_false_iff.2 fun one => apart member (rightInside position one)
    simp [member, clear]
  · have clear : left.isOne position = false :=
      Bool.eq_false_iff.2 fun one => member (leftInside position one)
    simp [member, clear]

theorem restrict_flip_of_mem (index : BasisState) {position : Nat} {positions : List Nat}
    (member : position ∈ positions) :
    (index.flip position).restrict positions = (index.restrict positions).flip position := by
  apply ext_is_one
  intro other _
  rw [is_one_restrict, is_one_flip, is_one_flip, is_one_restrict]
  by_cases here : position = other
  · rw [← here]
    simp [member]
  · simp [here]

theorem restrict_flip_of_not_mem (index : BasisState) {position : Nat} {positions : List Nat}
    (absent : position ∉ positions) :
    (index.flip position).restrict positions = index.restrict positions := by
  apply ext_is_one
  intro other _
  rw [is_one_restrict, is_one_restrict, is_one_flip]
  by_cases here : position = other
  · rw [← here]
    simp [absent]
  · simp [here]

theorem all_ones_restrict (index : BasisState) {positions others : List Nat}
    (fewer : positions ⊆ others) :
    (index.restrict others).allOnes positions = index.allOnes positions := by
  rw [allOnes, allOnes, Bool.eq_iff_iff, List.all_eq_true, List.all_eq_true]
  refine forall₂_congr fun position member => ?_
  rw [is_one_restrict]
  simp [fewer member]

/-- A permutation of positions that moves nothing at or above the width. -/
def Rearranges (sigma : Equiv.Perm Nat) : Prop :=
  ∀ position, width ≤ position → sigma position = position

theorem rearranges_refl : Rearranges (Equiv.refl Nat) := fun _ _ => rfl

theorem rearranges_swap {first second : Nat} (firstInside : first < width)
    (secondInside : second < width) : Rearranges (Equiv.swap first second) := by
  intro position outside
  exact Equiv.swap_apply_of_ne_of_ne (by omega) (by omega)

theorem rearranges_trans {sigma tau : Equiv.Perm Nat} (first : Rearranges sigma)
    (second : Rearranges tau) : Rearranges (sigma.trans tau) := by
  intro position outside
  rw [Equiv.trans_apply, first position outside, second position outside]

theorem rearranges_symm {sigma : Equiv.Perm Nat} (rearranges : Rearranges sigma) :
    Rearranges sigma.symm := by
  intro position outside
  rw [Equiv.symm_apply_eq, rearranges position outside]

/-- The state in which the value of each position has moved to where `sigma` takes the position. -/
def permute (index : BasisState) (sigma : Equiv.Perm Nat) : BasisState :=
  ofBits fun position => index.isOne (sigma.symm position)

theorem is_one_permute {sigma : Equiv.Perm Nat} (rearranges : Rearranges sigma)
    (index : BasisState) (position : Nat) :
    (index.permute sigma).isOne position = index.isOne (sigma.symm position) := by
  rw [permute, is_one_of_bits]
  by_cases inside : position < width
  · simp [inside]
  · have outside := Nat.le_of_not_lt inside
    rw [rearranges_symm rearranges position outside, is_one_eq_false_of_width_le index outside,
      Bool.false_and]

theorem is_one_permute_apply {sigma : Equiv.Perm Nat} (rearranges : Rearranges sigma)
    (index : BasisState) (position : Nat) :
    (index.permute sigma).isOne (sigma position) = index.isOne position := by
  rw [is_one_permute rearranges, Equiv.symm_apply_apply]

theorem permute_refl (index : BasisState) : index.permute (Equiv.refl Nat) = index := by
  apply ext_is_one
  intro position _
  rw [is_one_permute rearranges_refl, Equiv.refl_symm, Equiv.refl_apply]

theorem permute_trans {sigma tau : Equiv.Perm Nat} (first : Rearranges sigma)
    (second : Rearranges tau) (index : BasisState) :
    index.permute (sigma.trans tau) = (index.permute sigma).permute tau := by
  apply ext_is_one
  intro position _
  rw [is_one_permute (rearranges_trans first second), is_one_permute second,
    is_one_permute first]
  rfl

theorem permute_permute_symm {sigma : Equiv.Perm Nat} (rearranges : Rearranges sigma)
    (index : BasisState) : (index.permute sigma).permute sigma.symm = index := by
  rw [← permute_trans rearranges (rearranges_symm rearranges), Equiv.self_trans_symm]
  exact permute_refl index

theorem permute_symm_permute {sigma : Equiv.Perm Nat} (rearranges : Rearranges sigma)
    (index : BasisState) : (index.permute sigma.symm).permute sigma = index := by
  rw [← permute_trans (rearranges_symm rearranges) rearranges, Equiv.symm_trans_self]
  exact permute_refl index

theorem permute_injective {sigma : Equiv.Perm Nat} (rearranges : Rearranges sigma) :
    Function.Injective fun index : BasisState => index.permute sigma := by
  intro first second same
  change first.permute sigma = second.permute sigma at same
  rw [← permute_permute_symm rearranges first, same, permute_permute_symm rearranges]

theorem swap_eq_permute {first second : Nat} (firstInside : first < width)
    (secondInside : second < width) (index : BasisState) :
    index.swap first second = index.permute (Equiv.swap first second) := by
  apply ext_is_one
  intro position _
  rw [is_one_swap index firstInside secondInside,
    is_one_permute (rearranges_swap firstInside secondInside), Equiv.symm_swap,
    Equiv.swap_apply_def]

end SparseQuantum.BasisState
