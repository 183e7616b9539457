import Mathlib
import SparseQuantum.Proofs.GlobalState

/-!
# No stored amplitude is zero

With exact arithmetic no operation stores a zero: moved, turned and multiplied amplitudes stay
different from zero, a measured branch is scaled up by a number that is not zero, and whatever could
have become zero is pruned. So the states of a reachable simulator are determined by their
amplitudes.
-/

namespace SparseQuantum

set_option autoImplicit false

variable {R : Type} [ExactScalar R]

namespace SparseState

theorem zero_free_ground : (ground : SparseState R).ZeroFree := by
  intro index amplitude found
  rw [get_ground] at found
  split_ifs at found
  rw [← Option.some.inj found]
  exact one_ne_zero

theorem zero_free_of_amplitudes (amplitudes : Amplitudes R) :
    (ofAmplitudes amplitudes).ZeroFree := by
  intro index amplitude found
  rw [get_of_amplitudes, Option.filter_eq_some_iff] at found
  exact Amplitude.ne_zero_of_is_kept found.2

section Changed

variable {state : SparseState R} (zeroFree : state.ZeroFree)

include zeroFree

theorem ne_zero_of_mem {entry : BasisState × Amplitude R} (member : entry ∈ state.entries) :
    entry.2 ≠ 0 :=
  zeroFree entry.1 entry.2 ((mem_entries_iff state entry.1 entry.2).1 member)

theorem zero_free_rekey (move : BasisState → BasisState) : (state.rekey move).ZeroFree := by
  intro index amplitude found
  obtain ⟨entry, member, same⟩ := List.mem_map.1 (Amplitudes.mem_of_get_entries found)
  rw [Prod.mk.injEq] at same
  rw [← same.2]
  exact ne_zero_of_mem zeroFree member

theorem zero_free_apply_phase {onZero onOne : Option (Amplitude R)}
    (zeroTurns : ∀ phase ∈ onZero, phase ≠ 0) (oneTurns : ∀ phase ∈ onOne, phase ≠ 0)
    (target : Nat) (controls : List Nat) :
    (state.applyPhase onZero onOne target controls).ZeroFree := by
  intro index amplitude found
  obtain ⟨before, source, turned⟩ := of_get_apply_phase found
  have different := zeroFree index before source
  rcases turned with same | ⟨phase, member, same⟩
  · rw [same]
    exact different
  · rw [same]
    rcases member with onZero | onOne
    · exact mul_ne_zero different (zeroTurns phase onZero)
    · exact mul_ne_zero different (oneTurns phase onOne)

theorem zero_free_apply_gate (gate : Gate R) (target : Nat) (controls : List Nat) :
    (state.applyGate gate target controls).ZeroFree := by
  have none : ∀ phase ∈ (none : Option (Amplitude R)), phase ≠ 0 :=
    fun phase member => absurd member (by simp)
  have polar (angle : R) : ∀ phase ∈ some (Amplitude.polar 1 angle), phase ≠ 0 := by
    intro phase member
    rw [← Option.some.inj member]
    exact Amplitude.polar_ne_zero angle
  have unit (phase : Amplitude R) (length : phase.normSq = 1) :
      ∀ other ∈ some phase, other ≠ 0 := by
    intro other member same
    rw [Option.some.inj member, (Amplitude.norm_sq_eq_zero_iff other).2 same] at length
    exact zero_ne_one length
  cases gate with
  | x => exact zero_free_rekey zeroFree _
  | y | h | rotateX | rotateY | u2 | u3 => exact zero_free_of_amplitudes _
  | z => exact zero_free_apply_phase zeroFree none (unit _ (by simp [Amplitude.norm_sq_eq])) _ _
  | s => exact zero_free_apply_phase zeroFree none (unit _ (by simp [Amplitude.norm_sq_eq])) _ _
  | sAdjoint =>
      exact zero_free_apply_phase zeroFree none (unit _ (by simp [Amplitude.norm_sq_eq])) _ _
  | t => exact zero_free_apply_phase zeroFree none (polar _) _ _
  | tAdjoint => exact zero_free_apply_phase zeroFree none (polar _) _ _
  | phase => exact zero_free_apply_phase zeroFree none (polar _) _ _
  | rotateZ => exact zero_free_apply_phase zeroFree (polar _) (polar _) _ _

theorem branch_probability_pos {position : Nat} {outcome : Bool}
    {entry : BasisState × Amplitude R}
    (member : entry ∈ state.entries.filter fun entry => entry.1.isOne position == outcome) :
    0 < state.branchProbability position outcome := by
  let weights := (state.entries.filter fun entry => entry.1.isOne position == outcome).map
    (·.2.normSq)
  have sum : state.branchProbability position outcome = weights.sum := by
    rw [branchProbability, total, List.sum_eq_foldl]
  have nonneg : ∀ weight ∈ weights, 0 ≤ weight := by
    intro weight source
    obtain ⟨other, _, same⟩ := List.mem_map.1 source
    rw [← same]
    exact Amplitude.norm_sq_nonneg other.2
  have here : entry.2.normSq ∈ weights := List.mem_map.2 ⟨entry, member, rfl⟩
  rw [sum]
  exact lt_of_lt_of_le
    (Amplitude.norm_sq_pos (ne_zero_of_mem zeroFree (List.mem_of_mem_filter member)))
    (List.single_le_sum nonneg _ here)

theorem zero_free_collapse (position : Nat) (outcome reset : Bool) :
    (state.collapse position outcome reset).ZeroFree := by
  intro index amplitude found
  obtain ⟨entry, member, same⟩ := List.mem_map.1 (Amplitudes.mem_of_get_entries found)
  rw [Prod.mk.injEq] at same
  rw [← same.2]
  exact Amplitude.scale_down_ne_zero
    (ne_zero_of_mem zeroFree (List.mem_of_mem_filter member))
    (Amplitude.sqrt_ne_zero (branch_probability_pos zeroFree member))

end Changed

theorem zero_free_tensor {left right : SparseState R} (leftFree : left.ZeroFree)
    (rightFree : right.ZeroFree) : (left.tensor right).ZeroFree := by
  intro index amplitude found
  obtain ⟨first, member, inner⟩ := List.mem_flatMap.1 (Amplitudes.mem_of_get_entries found)
  obtain ⟨second, other, same⟩ := List.mem_map.1 inner
  rw [Prod.mk.injEq] at same
  rw [← same.2]
  exact mul_ne_zero (ne_zero_of_mem leftFree member) (ne_zero_of_mem rightFree other)

end SparseState

/-! ### Partitions -/

theorem zero_free_tensor_all {partitions : List (Partition R)}
    (zeroFree : ∀ partition ∈ partitions, partition.state.ZeroFree) :
    (tensorAll partitions).ZeroFree := by
  have from_start (start : SparseState R) (startFree : start.ZeroFree) :
      (partitions.foldl (fun state partition => state.tensor partition.state) start).ZeroFree := by
    induction partitions generalizing start with
    | nil => exact startFree
    | cons partition rest induction =>
        exact induction (fun other member => zeroFree other (List.mem_cons_of_mem _ member)) _
          (SparseState.zero_free_tensor startFree (zeroFree partition List.mem_cons_self))
  exact from_start .ground SparseState.zero_free_ground

namespace Arena

def ZeroFree (arena : Arena R) : Prop :=
  ∀ (place : Nat) (partition : Partition R), arena.partitions[place]? = some partition →
    partition.state.ZeroFree

theorem zero_free_empty : (empty : Arena R).ZeroFree := by
  intro place partition found
  simp [empty] at found

theorem zero_free_whole {arena : Arena R} (zeroFree : arena.ZeroFree) : arena.whole.ZeroFree := by
  apply zero_free_tensor_all
  intro partition member
  obtain ⟨place, _, found⟩ := mem_in_use_iff.1 member
  exact zeroFree place partition found

theorem zero_free_with_state {arena : Arena R} (zeroFree : arena.ZeroFree) (place : Nat)
    {state : SparseState R} (stateFree : state.ZeroFree) :
    (arena.withState place state).ZeroFree := by
  intro other partition found
  rw [partition_with_state] at found
  split_ifs at found
  · rcases Option.map_eq_some_iff.1 found with ⟨before, _, changed⟩
    rw [← changed]
    exact stateFree
  · exact zeroFree other partition found

theorem zero_free_inserts {arena grown : Arena R} {slot place : Nat} (zeroFree : arena.ZeroFree)
    (inserts : Inserts arena grown slot place) : grown.ZeroFree := by
  intro other partition found
  rw [inserts.partitions] at found
  split_ifs at found
  · rw [← Option.some.inj found]
    exact SparseState.zero_free_ground
  · exact zeroFree other partition found

theorem zero_free_joins {arena after : Arena R} {survivor absorbed : Nat}
    {target taken : Partition R} (zeroFree : arena.ZeroFree)
    (joins : Joins arena after survivor absorbed target taken) : after.ZeroFree := by
  intro other partition found
  rw [joins.partitions] at found
  split_ifs at found
  · rw [← Option.some.inj found]
    exact SparseState.zero_free_tensor (zeroFree survivor target joins.target_found)
      (zeroFree absorbed taken joins.taken_found)
  · rw [← Option.some.inj found]
    exact SparseState.zero_free_ground
  · exact zeroFree other partition found

theorem zero_free_merges {survivor : Nat} {arena merged : Arena R}
    (merges : Merges survivor arena merged) (zeroFree : arena.ZeroFree) : merged.ZeroFree := by
  induction merges with
  | done => exact zeroFree
  | join _ joins _ induction => exact induction (zero_free_joins zeroFree joins)

theorem zero_free_detaches {arena left : Arena R} {slot place : Nat} {owned : Partition R}
    (zeroFree : arena.ZeroFree) (detaches : Detaches arena left slot place owned) :
    left.ZeroFree := by
  intro other partition found
  rw [detaches.partitions] at found
  split_ifs at found
  · rw [← Option.some.inj found, without]
    split_ifs
    · exact SparseState.zero_free_ground
    · exact zeroFree place owned detaches.found
  · exact zeroFree other partition found

end Arena

/-! ### Reachable simulators -/

namespace Simulator

/-- One operation, whether it succeeds or not, stores no zero. -/
theorem zero_free_regroups {before : Simulator R} (zeroFree : before.arena.ZeroFree)
    {operation : Operation R} {after : Arena R} (regroups : Regroups before operation after) :
    after.ZeroFree := by
  cases regroups with
  | kept => exact zeroFree
  | grown _ inserts => exact Arena.zero_free_inserts zeroFree inserts
  | cleaned _ _ stands detaches =>
      exact Arena.zero_free_detaches (Arena.zero_free_with_state zeroFree _
        (SparseState.zero_free_collapse (zeroFree _ _ stands) _ _ _)) detaches
  | turned gathers =>
      have mergedFree := Arena.zero_free_merges gathers.merges zeroFree
      exact Arena.zero_free_with_state mergedFree _
        (SparseState.zero_free_apply_gate (mergedFree _ _ gathers.found) _ _ _)
  | collapsed _ stands =>
      exact Arena.zero_free_with_state zeroFree _
        (SparseState.zero_free_collapse (zeroFree _ _ stands) _ _ _)
  | gathered gathers => exact Arena.zero_free_merges gathers.merges zeroFree
  | rejoined _ _ _ gathers =>
      exact Arena.zero_free_with_state (Arena.zero_free_merges gathers.merges zeroFree) _
        (SparseState.zero_free_rekey (SparseState.zero_free_of_amplitudes _) _)

/-- No run stores a zero, whatever its plugins do. -/
theorem reachable_zero_free {allowed : Simulator R → Operation R → Prop} {simulator : Simulator R}
    (reached : Reachable allowed simulator) : simulator.arena.ZeroFree := by
  induction reached with
  | seeded => exact Arena.zero_free_empty
  | limited => exact Arena.zero_free_empty
  | step reached _ induction =>
      exact zero_free_regroups induction (perform_regroups (reachable_well_formed reached) _)

end Simulator

end SparseQuantum
