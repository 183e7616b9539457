import Mathlib
import SparseQuantum.Proofs.DumpViews
import SparseQuantum.Proofs.Relocation
import SparseQuantum.Proofs.RenamedStates

/-!
# The canonical layout as a permutation

The swaps for a layout depend on the layout alone. Together they are one permutation of the
positions, which takes the wanted ones to the front in their order and moves no other position than
those in the way there. A state in canonical layout has the amplitudes of the state it was made of,
each at the basis state whose bits have been taken along, so nothing is lost and no two of them
meet; undoing the swaps gives the state back.
-/

namespace SparseQuantum.Layout

set_option autoImplicit false

open BasisState

variable {R : Type} {positions : List Nat}

/-- A position that is neither wanted nor in the way stays. -/
theorem permutation_swaps_other (apart : positions.Nodup) {position : Nat}
    (unwanted : position ∉ positions) (beyond : positions.length ≤ position) :
    permutation (swaps positions) position = position := by
  have spec := permutation_swaps_from id 0 positions (fun _ _ => Nat.zero_le _)
    (by rw [List.map_id]; exact apart)
  exact spec.2.2 position (by rwa [List.map_id]) (by omega)

/-- Bringing different positions to the front is one permutation of the positions for all states:
each amplitude goes where the bits of its basis state go, and restoring takes it back. -/
theorem canonical_layout_permutes (apart : positions.Nodup)
    (inside : ∀ position ∈ positions, position < width) :
    ∃ sigma : Equiv.Perm Nat, Rearranges sigma ∧
      (∀ place (below : place < positions.length), sigma positions[place] = place) ∧
      (∀ position, position ∉ positions → positions.length ≤ position →
        sigma position = position) ∧
      (∀ (index : BasisState) (position : Nat),
        (index.permute sigma).isOne (sigma position) = index.isOne position) ∧
      (Function.Injective fun index : BasisState => index.permute sigma) ∧
      ∀ state : SparseState R, ∃ canonical, canonicalize state positions = .ok canonical ∧
        canonical.entries.Perm
          (state.entries.map fun entry => (entry.1.permute sigma, entry.2)) ∧
        canonical.size = state.size ∧ restore canonical positions = .ok state := by
  have rearranges := rearranges_permutation (swaps_bounded apart inside)
  refine ⟨permutation (swaps positions), rearranges, fun _ => permutation_swaps_wanted apart,
    fun _ => permutation_swaps_other apart, is_one_permute_apply rearranges,
    permute_injective rearranges, fun state => ?_⟩
  refine ⟨_, canonicalize_eq apart inside state,
    SparseState.permute_entries_perm rearranges state,
    state.size_rekey (permute_injective rearranges), ?_⟩
  rw [restore_eq apart inside, SparseState.permute_permute_symm rearranges]

/-- The wanted positions stand in each other's places, and the last of them in another word. -/
def crossing : List Nat := [2, 0, 1, 70]

theorem crossing_permutes :
    crossing.Nodup ∧ (∀ position ∈ crossing, position < width) ∧
      ∃ sigma : Equiv.Perm Nat, sigma 2 = 0 ∧ sigma 0 = 1 ∧ sigma 1 = 2 ∧ sigma 70 = 3 ∧
        sigma 4 = 4 ∧ ∀ state : SparseState Float, ∃ canonical,
          canonicalize state crossing = .ok canonical ∧ canonical.size = state.size ∧
            restore canonical crossing = .ok state := by
  have apart : crossing.Nodup := by decide
  have inside : ∀ position ∈ crossing, position < width := by decide
  obtain ⟨sigma, _, takes, keeps, _, _, permutes⟩ :=
    canonical_layout_permutes (R := Float) apart inside
  refine ⟨apart, inside, sigma, takes 0 (by decide), takes 1 (by decide), takes 2 (by decide),
    takes 3 (by decide), keeps 4 (by decide) (by decide), fun state => ?_⟩
  obtain ⟨canonical, brought, _, size, restored⟩ := permutes state
  exact ⟨canonical, brought, size, restored⟩

end SparseQuantum.Layout
