import Mathlib
import SparseQuantum.Layout
import SparseQuantum.Proofs.Entries
import SparseQuantum.Proofs.Positions

/-!
# Bringing positions to the front

A chain of swaps acts on a state as one permutation of its positions. The chain for the canonical
layout takes the wanted positions to `0`, `1`, … in their order and leaves alone whatever is neither
wanted nor in the way; undone in reverse it is the inverse permutation. Positions below the width
that do not repeat are never more than there are, so no swap leaves the width.
-/

namespace SparseQuantum

open BasisState

set_option autoImplicit false

variable {R : Type}

namespace SparseState

def permute (state : SparseState R) (sigma : Equiv.Perm Nat) : SparseState R :=
  state.rekey fun index => index.permute sigma

theorem get_permute {sigma : Equiv.Perm Nat} (rearranges : Rearranges sigma)
    (state : SparseState R) (index : BasisState) :
    (state.permute sigma).get? index = state.get? (index.permute sigma.symm) :=
  @get_rekey_inverse R state (fun index => index.permute sigma)
    (fun index => index.permute sigma.symm) (permute_permute_symm rearranges)
    (permute_symm_permute rearranges) index

theorem permute_refl (state : SparseState R) : state.permute (Equiv.refl Nat) = state := by
  apply ext_get
  intro index
  rw [get_permute rearranges_refl, Equiv.refl_symm, BasisState.permute_refl]

theorem permute_trans {sigma tau : Equiv.Perm Nat} (first : Rearranges sigma)
    (second : Rearranges tau) (state : SparseState R) :
    state.permute (sigma.trans tau) = (state.permute sigma).permute tau := by
  apply ext_get
  intro index
  rw [get_permute (rearranges_trans first second), get_permute second, get_permute first,
    ← BasisState.permute_trans (rearranges_symm second) (rearranges_symm first)]
  rfl

theorem permute_permute_symm {sigma : Equiv.Perm Nat} (rearranges : Rearranges sigma)
    (state : SparseState R) : (state.permute sigma).permute sigma.symm = state := by
  rw [← permute_trans rearranges (rearranges_symm rearranges), Equiv.self_trans_symm]
  exact permute_refl state

theorem swap_eq_permute {first second : Nat} (firstInside : first < width)
    (secondInside : second < width) (state : SparseState R) :
    state.swap first second = state.permute (Equiv.swap first second) := by
  by_cases same : first = second
  · rw [swap, if_pos same, same, Equiv.swap_self]
    exact (permute_refl state).symm
  · rw [swap, if_neg same, permute]
    apply congrArg state.rekey
    funext index
    exact BasisState.swap_eq_permute firstInside secondInside index

theorem permute_of_is_empty {state : SparseState R} (empty : state.isEmpty = true)
    (sigma : Equiv.Perm Nat) : state.permute sigma = state := by
  have none : state.amplitudes = ∅ := Std.ExtTreeMap.isEmpty_iff.1 empty
  have entries : state.entries = [] := Std.ExtTreeMap.toList_eq_nil_iff.2 none
  apply SparseState.ext
  rw [permute, rekey, entries, none]
  rfl

theorem checked_swap {first second : Nat} (firstInside : first < width)
    (secondInside : second < width) (state : SparseState R) :
    state.swap? first second = .ok (state.permute (Equiv.swap first second)) := by
  rw [swap?]
  split_ifs with shortcut
  · rw [Bool.or_eq_true, decide_eq_true_eq] at shortcut
    rcases shortcut with same | empty
    · rw [same, Equiv.swap_self]
      exact congrArg Except.ok (permute_refl state).symm
    · rw [permute_of_is_empty empty]
  · rw [← swap_eq_permute firstInside secondInside]
    have inside : checkPositions [first, second] = .ok () := by
      simp [checkPositions, Nat.not_le.2 firstInside, Nat.not_le.2 secondInside]
    rw [inside]
    rfl

end SparseState

namespace Layout

/-- Where swaps, one after the other, take each position. -/
def permutation : List (Nat × Nat) → Equiv.Perm Nat
  | [] => Equiv.refl Nat
  | (first, second) :: rest => (Equiv.swap first second).trans (permutation rest)

def Bounded (exchanges : List (Nat × Nat)) : Prop :=
  ∀ pair ∈ exchanges, pair.1 < width ∧ pair.2 < width

theorem rearranges_permutation {exchanges : List (Nat × Nat)} (bounded : Bounded exchanges) :
    Rearranges (permutation exchanges) := by
  induction exchanges with
  | nil => exact rearranges_refl
  | cons pair rest induction =>
      have here := bounded pair List.mem_cons_self
      exact rearranges_trans (rearranges_swap here.1 here.2)
        (induction fun other member => bounded other (List.mem_cons_of_mem _ member))

theorem exchange_eq_permute {exchanges : List (Nat × Nat)} (bounded : Bounded exchanges)
    (state : SparseState R) :
    exchange state exchanges = .ok (state.permute (permutation exchanges)) := by
  induction exchanges generalizing state with
  | nil => exact congrArg Except.ok (SparseState.permute_refl state).symm
  | cons pair rest induction =>
      have here := bounded pair List.mem_cons_self
      have later : Bounded rest := fun other member => bounded other (List.mem_cons_of_mem _ member)
      rw [exchange, SparseState.checked_swap here.1 here.2]
      change exchange (state.permute (Equiv.swap pair.1 pair.2)) rest = _
      rw [induction later, permutation, SparseState.permute_trans
        (rearranges_swap here.1 here.2) (rearranges_permutation later)]

theorem permutation_append (first second : List (Nat × Nat)) :
    permutation (first ++ second) = (permutation first).trans (permutation second) := by
  induction first with
  | nil => rfl
  | cons pair rest induction =>
      rw [List.cons_append, permutation, permutation, induction]
      rfl

theorem permutation_reverse (exchanges : List (Nat × Nat)) :
    permutation exchanges.reverse = (permutation exchanges).symm := by
  induction exchanges with
  | nil => rfl
  | cons pair rest induction =>
      rw [List.reverse_cons, permutation_append, induction]
      apply Equiv.ext
      intro position
      simp [permutation, Equiv.symm_swap]

/-- What the swaps from `place` on do, when what is wanted stands at different places that are not
settled yet. The induction is on what is still wanted: the step settles `place`, and `onward` agrees
with the swap on everything that is wanted later. -/
theorem permutation_swaps_from (moved : Nat → Nat) (place : Nat) (positions : List Nat)
    (ahead : ∀ position ∈ positions, place ≤ moved position)
    (apart : (positions.map moved).Nodup) :
    (∀ settled, settled < place →
      permutation (swapsFrom moved place positions) settled = settled) ∧
    (positions.map fun position =>
      permutation (swapsFrom moved place positions) (moved position)) =
        List.range' place positions.length ∧
    ∀ other, other ∉ positions.map moved → place + positions.length ≤ other →
      permutation (swapsFrom moved place positions) other = other := by
  induction positions generalizing moved place with
  | nil => exact ⟨fun _ _ => rfl, rfl, fun _ _ _ => rfl⟩
  | cons position rest induction =>
      have fresh : ∀ later ∈ rest, moved later ≠ moved position := by
        intro later member same
        rw [List.map_cons, List.nodup_cons] at apart
        exact apart.1 (List.mem_map.2 ⟨later, member, same⟩)
      have restApart : (rest.map moved).Nodup := (List.nodup_cons.1 apart).2
      by_cases standing : moved position = place
      · have beyond : ∀ later ∈ rest, place + 1 ≤ moved later := by
          intro later member
          have below := ahead later (List.mem_cons_of_mem _ member)
          have different := fresh later member
          omega
        obtain ⟨settles, takes, keeps⟩ := induction moved (place + 1) beyond restApart
        simp only [swapsFrom, standing, if_true]
        refine ⟨fun settled below => settles settled (by omega), ?_, ?_⟩
        · rw [List.map_cons, takes, standing, settles place (by omega), List.length_cons,
            List.range'_succ]
        · intro other absent above
          rw [List.length_cons] at above
          exact keeps other (fun member => absent (List.mem_cons_of_mem _ member)) (by omega)
      · let onward := fun later =>
          if moved later = place then moved position else moved later
        have above : place ≤ moved position := ahead position List.mem_cons_self
        have swapped : ∀ later ∈ rest,
            onward later = Equiv.swap place (moved position) (moved later) := by
          intro later member
          have different := fresh later member
          simp only [onward, Equiv.swap_apply_def, if_neg different]
        have beyond : ∀ later ∈ rest, place + 1 ≤ onward later := by
          intro later member
          have below := ahead later (List.mem_cons_of_mem _ member)
          simp only [onward]
          split_ifs <;> omega
        have onwardApart : (rest.map onward).Nodup := by
          rw [List.map_congr_left swapped, ← Function.comp_def (Equiv.swap place (moved position)),
            ← List.map_map]
          exact restApart.map (Equiv.injective _)
        obtain ⟨settles, takes, keeps⟩ := induction onward (place + 1) beyond onwardApart
        simp only [swapsFrom, if_neg standing, permutation, Equiv.trans_apply]
        refine ⟨?_, ?_, ?_⟩
        · intro settled below
          rw [Equiv.swap_apply_of_ne_of_ne (by omega) (by omega)]
          exact settles settled (by omega)
        · rw [List.map_cons, Equiv.swap_apply_right, List.length_cons, List.range'_succ, ← takes]
          congr 1
          · exact settles place (by omega)
          · exact List.map_congr_left fun later member => by rw [swapped later member]
        · intro other absent beyondAll
          rw [List.length_cons] at beyondAll
          have notPlace : other ≠ place := by omega
          have notCurrent : other ≠ moved position := by
            intro same
            exact absent (by rw [same]; exact List.mem_cons_self)
          rw [Equiv.swap_apply_of_ne_of_ne notPlace notCurrent]
          apply keeps other _ (by omega)
          intro member
          obtain ⟨later, source, same⟩ := List.mem_map.1 member
          rw [swapped later source] at same
          have there : moved later = other := by
            rw [← Equiv.swap_apply_of_ne_of_ne notPlace notCurrent] at same
            exact (Equiv.swap place (moved position)).injective same
          exact absent (List.mem_cons_of_mem _ (List.mem_map.2 ⟨later, source, there⟩))

/-- The canonical layout puts the wanted positions first, in their order. -/
theorem permutation_swaps {positions : List Nat} (apart : positions.Nodup) :
    positions.map (permutation (swaps positions)) = List.range positions.length := by
  have spec := permutation_swaps_from id 0 positions (fun _ _ => Nat.zero_le _)
    (by rw [List.map_id]; exact apart)
  rw [List.range_eq_range']
  exact spec.2.1

theorem permutation_swaps_wanted {positions : List Nat} (apart : positions.Nodup) {place : Nat}
    (below : place < positions.length) :
    permutation (swaps positions) positions[place] = place := by
  have moved := congrArg (·[place]?) (permutation_swaps apart)
  rw [List.getElem?_map, List.getElem?_eq_getElem below, List.getElem?_range below] at moved
  exact Option.some.inj moved

theorem swaps_from_bounded (moved : Nat → Nat) (place : Nat) (positions : List Nat)
    (inside : ∀ position ∈ positions, moved position < width)
    (room : place + positions.length ≤ width) : Bounded (swapsFrom moved place positions) := by
  induction positions generalizing moved place with
  | nil => exact fun pair member => absurd member List.not_mem_nil
  | cons position rest induction =>
      rw [List.length_cons] at room
      have here : moved position < width := inside position List.mem_cons_self
      have later : ∀ other ∈ rest, moved other < width :=
        fun other member => inside other (List.mem_cons_of_mem _ member)
      rw [swapsFrom]
      split_ifs
      · exact induction moved (place + 1) later (by omega)
      · intro pair member
        rcases List.mem_cons.1 member with first | tail
        · rw [first]
          exact ⟨by omega, here⟩
        · refine induction _ (place + 1) ?_ (by omega) pair tail
          intro other source
          dsimp only
          split_ifs
          · exact here
          · exact later other source

/-- Different positions below the width are no more than the width. -/
theorem length_le_width {positions : List Nat} (apart : positions.Nodup)
    (inside : ∀ position ∈ positions, position < width) : positions.length ≤ width := by
  have subset : positions ⊆ List.range width :=
    fun position member => List.mem_range.2 (inside position member)
  have bound := (List.subperm_of_subset apart subset).length_le
  rwa [List.length_range] at bound

theorem swaps_bounded {positions : List Nat} (apart : positions.Nodup)
    (inside : ∀ position ∈ positions, position < width) : Bounded (swaps positions) :=
  swaps_from_bounded id 0 positions inside (by have := length_le_width apart inside; omega)

theorem canonicalize_eq {positions : List Nat} (apart : positions.Nodup)
    (inside : ∀ position ∈ positions, position < width) (state : SparseState R) :
    canonicalize state positions = .ok (state.permute (permutation (swaps positions))) :=
  exchange_eq_permute (swaps_bounded apart inside) state

theorem restore_eq {positions : List Nat} (apart : positions.Nodup)
    (inside : ∀ position ∈ positions, position < width) (state : SparseState R) :
    restore state positions = .ok (state.permute (permutation (swaps positions)).symm) := by
  have bounded : Bounded (swaps positions).reverse :=
    fun pair member => swaps_bounded apart inside pair (List.mem_reverse.1 member)
  rw [restore, exchange_eq_permute bounded, permutation_reverse]

end Layout

end SparseQuantum
