import Mathlib
import SparseQuantum.Proofs.Branches
import SparseQuantum.Proofs.Circuits
import SparseQuantum.Proofs.Registers

/-!
# Changes that only move amplitudes

A flip of one position, whatever its controls, and an exchange of two positions take each amplitude
to another basis state. They do so along a bijection of all basis states that is its own inverse, so
no amplitude is overwritten and the same change takes all of them back. As bijections they obey the
laws of circuits: a further control is one more control, three flips in turn are an exchange, and
exchanges around a flip exchange the positions that it names.
-/

namespace SparseQuantum

set_option autoImplicit false

namespace BasisState

/-! ### Flips and exchanges as bijections -/

def flipping {target : Nat} {controls : List Nat} (absent : target ∉ controls) :
    Equiv.Perm BasisState :=
  Function.Involutive.toPerm (flipWhere target controls) (flip_where_flip_where absent)

theorem is_one_flip_where (index : BasisState) {target : Nat} (inside : target < width)
    (controls : List Nat) (position : Nat) :
    (index.flipWhere target controls).isOne position =
      (index.isOne position ^^ (index.allOnes controls && decide (position = target))) := by
  have here : (target = position ∧ position < width) ↔ position = target :=
    ⟨fun both => both.1.symm, fun same => ⟨same.symm, by rw [same]; exact inside⟩⟩
  rw [flipWhere]
  split_ifs with ones
  · rw [is_one_flip, ones, Bool.true_and]
    simp only [here]
  · rw [Bool.eq_false_of_not_eq_true ones, Bool.false_and, Bool.xor_false]

section Exchange

variable {first second : Nat} (firstInside : first < width) (secondInside : second < width)

include firstInside secondInside

def exchanging : Equiv.Perm BasisState :=
  Function.Involutive.toPerm (fun index => index.swap first second) fun index =>
    index.swap_swap firstInside secondInside

theorem is_one_exchanging (index : BasisState) (position : Nat) :
    (exchanging firstInside secondInside index).isOne position =
      index.isOne (Equiv.swap first second position) := by
  change (index.swap first second).isOne position = _
  rw [is_one_swap index firstInside secondInside, Equiv.swap_apply_def]

/-- Adding each of two bits to the other in turn, three times, exchanges them. -/
theorem flip_three_times (different : first ≠ second) (index : BasisState) :
    ((index.flipWhere second [first]).flipWhere first [second]).flipWhere second [first] =
      index.swap first second := by
  have control (index : BasisState) (position : Nat) :
      index.allOnes [position] = index.isOne position := Bool.and_true _
  apply ext_is_one
  intro position _
  simp only [is_one_flip_where _ firstInside, is_one_flip_where _ secondInside, control,
    is_one_swap index firstInside secondInside]
  by_cases atFirst : position = first
  · cases one : index.isOne first <;> cases two : index.isOne second <;>
      simp [atFirst, different, one, two]
  · by_cases atSecond : position = second
    · cases one : index.isOne first <;> cases two : index.isOne second <;>
        simp [atSecond, different, Ne.symm different, one, two]
    · simp [atFirst, atSecond]

/-- An exchange before and after a flip exchanges the positions that the flip names. -/
theorem exchange_flip_exchange {target : Nat} (targetInside : target < width)
    (controls : List Nat) (index : BasisState) :
    ((index.swap first second).flipWhere target controls).swap first second =
      index.flipWhere (Equiv.swap first second target)
        (controls.map (Equiv.swap first second)) := by
  have bits (index : BasisState) (position : Nat) :
      (index.swap first second).isOne position = index.isOne (Equiv.swap first second position) :=
    is_one_exchanging firstInside secondInside index position
  have control : (index.swap first second).allOnes controls =
      index.allOnes (controls.map (Equiv.swap first second)) := by
    rw [allOnes, allOnes, List.all_map]
    exact congrArg controls.all (funext (bits index))
  have exchangedInside : Equiv.swap first second target < width :=
    lt_width_of_rearranges (rearranges_swap firstInside secondInside) targetInside
  apply ext_is_one
  intro position _
  have here : decide (Equiv.swap first second position = target) =
      decide (position = Equiv.swap first second target) :=
    decide_eq_decide.2 Equiv.swap_apply_eq_iff
  rw [bits, is_one_flip_where _ targetInside, bits, control, Equiv.swap_apply_self, here,
    is_one_flip_where _ exchangedInside]

end Exchange

end BasisState

open BasisState

variable {R : Type}

namespace SparseState

/-- Moving along one bijection and then along another is moving along both. -/
theorem rekey_rekey (state : SparseState R) (first second : Equiv.Perm BasisState) :
    (state.rekey first).rekey second = state.rekey (first.trans second) := by
  apply ext_get
  intro index
  rw [get_rekey_inverse _ second.symm_apply_apply second.apply_symm_apply,
    get_rekey_inverse _ first.symm_apply_apply first.apply_symm_apply,
    get_rekey_inverse _ (first.trans second).symm_apply_apply
      (first.trans second).apply_symm_apply]
  rfl

theorem rekey_refl (state : SparseState R) : state.rekey (Equiv.refl BasisState) = state := by
  apply ext_get
  intro index
  exact @get_rekey_inverse R state id id (fun _ => rfl) (fun _ => rfl) index

end SparseState

namespace Change

variable [Scalar R]

/-- Whatever the state, the change is accepted and takes every entry along the bijection: as many
entries with the same amplitudes are left, and the change takes them back. -/
def Carries (change : Change R) (move : Equiv.Perm BasisState) : Prop :=
  ∀ state, ∃ after, change.perform? state = .ok after ∧
    after.entries.Perm (state.entries.map fun entry => (move entry.1, entry.2)) ∧
    after.size = state.size ∧
    (after.entries.map (·.2)).Perm (state.entries.map (·.2)) ∧
    change.perform? after = .ok state

theorem carries_of_rekey {change : Change R} {move : Equiv.Perm BasisState}
    (returns : move.trans move = Equiv.refl BasisState)
    (rekeys : ∀ state, change.perform? state = .ok (state.rekey move)) : change.Carries move := by
  intro state
  have entries := state.rekey_entries_perm move.injective
  refine ⟨state.rekey move, rekeys state, entries, state.size_rekey move.injective, ?_, ?_⟩
  · have amplitudes := entries.map (·.2)
    rw [List.map_map] at amplitudes
    exact amplitudes
  · rw [rekeys, SparseState.rekey_rekey, returns, SparseState.rekey_refl]

theorem perform_flip {target : Nat} {controls : List Nat}
    (inside : ∀ position ∈ target :: controls, position < width) (absent : target ∉ controls)
    (state : SparseState R) :
    (Change.gate .x target controls).perform? state = .ok (state.rekey (flipping absent)) := by
  have reads : ∀ position ∈ controls ++ [target], position < width := by
    intro position member
    apply inside position
    rw [List.mem_cons, or_comm, ← List.mem_singleton, ← List.mem_append]
    exact member
  exact SparseState.guarded_ok state reads _

/-- A further control is one more control, also where a position is refused. -/
theorem perform_cnot (control target : Nat) (controls : List Nat) (state : SparseState R) :
    (Change.cnot control target controls).perform? state =
      (Change.gate .x target (control :: controls)).perform? state := rfl

section Exchange

variable {first second : Nat} (firstInside : first < width) (secondInside : second < width)

include firstInside secondInside

theorem perform_swap (state : SparseState R) :
    (Change.swap first second).perform? state =
      .ok (state.rekey (exchanging firstInside secondInside)) := by
  have moves : (fun index : BasisState => index.permute (Equiv.swap first second)) =
      exchanging firstInside secondInside :=
    funext fun index => (BasisState.swap_eq_permute firstInside secondInside index).symm
  rw [perform?, SparseState.checked_swap firstInside secondInside, SparseState.permute, moves]

theorem run_three_flips (different : first ≠ second) (state : SparseState R) :
    run? state [.cnot first second [], .cnot second first [], .cnot first second []] =
      (Change.swap first second).perform? state := by
  have bothInside : ∀ position ∈ [second, first], position < width := by
    simp [firstInside, secondInside]
  have bothInside' : ∀ position ∈ [first, second], position < width := by
    simp [firstInside, secondInside]
  have absent : second ∉ [first] := by simpa using Ne.symm different
  have absent' : first ∉ [second] := by simpa using different
  have moves : ((flipping absent).trans (flipping absent')).trans (flipping absent) =
      exchanging firstInside secondInside :=
    Equiv.ext (flip_three_times firstInside secondInside different)
  rw [perform_swap firstInside secondInside, ← moves]
  simp only [run?, perform_cnot, perform_flip bothInside absent, perform_flip bothInside' absent',
    ← SparseState.rekey_rekey]
  rfl

/-- Positions that are exchanged before and after a flip have its target and its controls
exchanged. -/
theorem run_conjugated {target : Nat} {controls : List Nat}
    (inside : ∀ position ∈ target :: controls, position < width) (absent : target ∉ controls)
    (state : SparseState R) :
    run? state [.swap first second, .gate .x target controls, .swap first second] =
      (Change.gate .x (Equiv.swap first second target)
        (controls.map (Equiv.swap first second))).perform? state := by
  have exchangedInside : ∀ position ∈ Equiv.swap first second target ::
      controls.map (Equiv.swap first second), position < width := by
    rw [← List.map_cons]
    intro position member
    obtain ⟨source, listed, same⟩ := List.mem_map.1 member
    rw [← same]
    exact lt_width_of_rearranges (rearranges_swap firstInside secondInside) (inside source listed)
  have exchangedAbsent : Equiv.swap first second target ∉
      controls.map (Equiv.swap first second) := by
    rw [List.mem_map_of_injective (Equiv.injective _)]
    exact absent
  have moves : ((exchanging firstInside secondInside).trans (flipping absent)).trans
      (exchanging firstInside secondInside) = flipping exchangedAbsent :=
    Equiv.ext (exchange_flip_exchange firstInside secondInside
      (inside target List.mem_cons_self) controls)
  rw [perform_flip exchangedInside exchangedAbsent, ← moves]
  simp only [run?, perform_flip inside absent, perform_swap firstInside secondInside,
    ← SparseState.rekey_rekey]
  rfl

end Exchange

/-- Flips and exchanges lose nothing: the bijection of each is said bit by bit, and holds for all
states. They obey the laws of circuits, of which the last is about any flip and any exchange. -/
theorem moves_lossless {target control first second : Nat} {controls : List Nat}
    (inside : ∀ position ∈ [target, control, first, second] ++ controls, position < width)
    (apart : target ∉ control :: controls) :
    (∃ move, (Change.gate .x target controls : Change R).Carries move ∧
      ∀ index position, (move index).isOne position =
        (index.isOne position ^^ (index.allOnes controls && decide (position = target)))) ∧
    (∃ move, (Change.cnot control target controls : Change R).Carries move ∧
      ∀ index position, (move index).isOne position =
        (index.isOne position ^^
          (index.isOne control && index.allOnes controls && decide (position = target)))) ∧
    (∃ move, (Change.swap first second : Change R).Carries move ∧
      ∀ index position, (move index).isOne position =
        index.isOne (Equiv.swap first second position)) ∧
    ∀ state : SparseState R,
      (Change.cnot control target controls).perform? state =
        (Change.gate .x target (control :: controls)).perform? state ∧
      (first ≠ second →
        run? state [.cnot first second [], .cnot second first [], .cnot first second []] =
          (Change.swap first second).perform? state) ∧
      run? state [.swap first second, .gate .x target controls, .swap first second] =
        (Change.gate .x (Equiv.swap first second target)
          (controls.map (Equiv.swap first second))).perform? state := by
  have absent : target ∉ controls := fun member => apart (List.mem_cons_of_mem control member)
  have targetInside : target < width := inside target (by simp)
  have firstInside : first < width := inside first (by simp)
  have secondInside : second < width := inside second (by simp)
  have flipInside : ∀ position ∈ target :: controls, position < width :=
    fun position member => inside position (by simp at member ⊢; tauto)
  have cnotInside : ∀ position ∈ target :: control :: controls, position < width :=
    fun position member => inside position (by simp at member ⊢; tauto)
  refine ⟨⟨flipping absent, ?_, fun index => is_one_flip_where index targetInside controls⟩,
    ⟨flipping apart, ?_, fun index => is_one_flip_where index targetInside (control :: controls)⟩,
    ⟨exchanging firstInside secondInside, ?_, is_one_exchanging firstInside secondInside⟩,
    fun state => ⟨perform_cnot control target controls state,
      fun different => run_three_flips firstInside secondInside different state,
      run_conjugated firstInside secondInside flipInside absent state⟩⟩
  · exact carries_of_rekey (Equiv.ext (flip_where_flip_where absent))
      (perform_flip flipInside absent)
  · exact carries_of_rekey (Equiv.ext (flip_where_flip_where apart))
      (perform_flip cnotInside apart)
  · exact carries_of_rekey
      (Equiv.ext fun index => index.swap_swap firstInside secondInside)
      (perform_swap firstInside secondInside)

theorem far_moves_lossless :
    (∀ position ∈ [70, 3, 3, 70] ++ [1023, 0, 1023], position < width) ∧
    70 ∉ 3 :: [1023, 0, 1023] ∧
    (∃ move, (Change.cnot 3 70 [1023, 0, 1023] : Change Float).Carries move ∧
      (move (.ofOnes [0, 3, 1023])).isOne 70 = true) ∧
    ∀ state : SparseState Float,
      run? state [.cnot 3 70 [], .cnot 70 3 [], .cnot 3 70 []] =
        (Change.swap 3 70).perform? state ∧
      run? state [.swap 3 70, .gate .x 70 [1023, 0, 1023], .swap 3 70] =
        (Change.gate .x 3 [1023, 0, 1023]).perform? state := by
  have inside : ∀ position ∈ [70, 3, 3, 70] ++ [1023, 0, 1023], position < width := by decide
  have apart : 70 ∉ 3 :: [1023, 0, 1023] := by decide
  obtain ⟨_, ⟨move, carries, bits⟩, _, laws⟩ := moves_lossless (R := Float) inside apart
  refine ⟨inside, apart, ⟨move, carries, ?_⟩, fun state => ?_⟩
  · rw [bits]
    decide +kernel
  · obtain ⟨_, exchanged, conjugated⟩ := laws state
    exact ⟨exchanged (by decide), conjugated⟩

end Change

end SparseQuantum
