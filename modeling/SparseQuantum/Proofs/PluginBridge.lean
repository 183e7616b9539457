import Mathlib
import SparseQuantum.Proofs.Reachability

/-!
# What a plugin sees and what it changes

A plugin is handed the part of a state, in canonical layout, in which all live controls are 1, and
the rest is added back to what it leaves. Seen from the slots, the call is this exchange conjugated
by the permutation that brings the operands to the front.
-/

namespace SparseQuantum

set_option autoImplicit false

variable {R : Type} [Scalar R]

namespace Amplitudes

theorem get_foldl_accumulate_of_absent {entries : List (BasisState × Amplitude R)}
    {index : BasisState} (absent : ∀ entry ∈ entries, entry.1 ≠ index) (start : Amplitudes R) :
    (entries.foldl (fun amplitudes entry => amplitudes.accumulate entry.1 entry.2) start)[index]? =
      start[index]? := by
  induction entries generalizing start with
  | nil => rfl
  | cons entry rest induction =>
      rw [List.foldl_cons,
        induction fun other member => absent other (List.mem_cons_of_mem _ member),
        get_accumulate, if_neg (absent entry List.mem_cons_self)]

theorem get_foldl_accumulate_of_mem {entries : List (BasisState × Amplitude R)}
    (distinct : Distinct entries) {index : BasisState} {amplitude : Amplitude R}
    (member : (index, amplitude) ∈ entries) (start : Amplitudes R) :
    (entries.foldl (fun amplitudes entry => amplitudes.accumulate entry.1 entry.2) start)[index]? =
      some ((start[index]?.getD .zero).add amplitude) := by
  induction entries generalizing start with
  | nil => exact absurd member List.not_mem_nil
  | cons entry rest induction =>
      obtain ⟨different, restDistinct⟩ := List.pairwise_cons.1 distinct
      rw [List.foldl_cons]
      rcases List.mem_cons.1 member with first | later
      · have absent : ∀ other ∈ rest, other.1 ≠ index := by
          intro other source same
          apply different other source
          rw [← first, same]
        rw [get_foldl_accumulate_of_absent absent, get_accumulate, ← first, if_pos rfl]
      · rw [induction restDistinct later, get_accumulate, if_neg (different _ later)]

end Amplitudes

namespace Simulator

open Amplitudes

theorem handed_get (canonical : SparseState R) (targets controls : Nat) (arguments : String)
    (inverse : Bool) (index : BasisState) :
    (handed canonical targets controls arguments inverse).state.get? index =
      if index.allOnes (controlPlaces targets controls) then
        (canonical.get? index).filter Amplitude.isKept
      else none := by
  let places := controlPlaces targets controls
  have distinct : Distinct (splitActive canonical places).1 := by
    rw [splitActive, List.partition_eq_filter_filter]
    exact canonical.entries_distinct.filter _
  have active (amplitude : Amplitude R) :
      (ofEntries (splitActive canonical places).1)[index]? = some amplitude ↔
        canonical.get? index = some amplitude ∧ index.allOnes places = true := by
    rw [get_entries_iff distinct, splitActive, List.partition_eq_filter_filter, List.mem_filter,
      SparseState.mem_entries_iff]
  rw [show (handed canonical targets controls arguments inverse).state = .ofAmplitudes
    (ofEntries (splitActive canonical places).1) from rfl, SparseState.get_of_amplitudes]
  by_cases ones : index.allOnes places = true
  · rw [if_pos ones]
    congr 1
    apply Option.ext
    intro amplitude
    rw [active]
    exact ⟨fun both => both.1, fun found => ⟨found, ones⟩⟩
  · rw [if_neg ones]
    have nothing : (ofEntries (splitActive canonical places).1)[index]? = none := by
      rw [Option.eq_none_iff_forall_ne_some]
      intro amplitude found
      exact ones ((active amplitude).1 found).2
    rw [nothing]
    rfl

/-- What stands at a basis state once a plugin has left `left`, before small amplitudes go: the
amplitude that it did not see is added to its own. -/
def combined (canonical left : SparseState R) (unseen : Bool) (index : BasisState) :
    Option (Amplitude R) :=
  match if unseen then canonical.get? index else none with
  | some amplitude => some (((left.get? index).getD .zero).add amplitude)
  | none => left.get? index

theorem rejoined_get (canonical left : SparseState R) (targets controls : Nat)
    (index : BasisState) :
    (rejoined canonical left targets controls).get? index =
      (combined canonical left (!index.allOnes (controlPlaces targets controls)) index).filter
        Amplitude.isKept := by
  let places := controlPlaces targets controls
  have distinct : Distinct (splitActive canonical places).2 := by
    rw [splitActive, List.partition_eq_filter_filter]
    exact canonical.entries_distinct.filter _
  have passive (entry : BasisState × Amplitude R) :
      entry ∈ (splitActive canonical places).2 ↔
        canonical.get? entry.1 = some entry.2 ∧ entry.1.allOnes places = false := by
    rw [splitActive, List.partition_eq_filter_filter, List.mem_filter,
      SparseState.mem_entries_iff, Function.comp_apply, Bool.not_eq_true']
  rw [rejoined, SparseState.replace, SparseState.get_of_amplitudes, rejoin]
  congr 1
  cases unseen : !index.allOnes places with
  | false =>
      have ones : index.allOnes places = true := by simpa using unseen
      rw [get_foldl_accumulate_of_absent]
      · rfl
      · intro entry member same
        have zeros := ((passive entry).1 member).2
        rw [same, ones] at zeros
        exact absurd zeros (by decide)
  | true =>
      have zeros : index.allOnes places = false := by simpa using unseen
      rw [combined, if_pos rfl]
      cases found : canonical.get? index with
      | some amplitude =>
          rw [get_foldl_accumulate_of_mem distinct ((passive (index, amplitude)).2 ⟨found, zeros⟩)]
          rfl
      | none =>
          rw [get_foldl_accumulate_of_absent]
          · rfl
          · intro entry member same
            have stored := ((passive entry).1 member).1
            rw [same, found] at stored
            exact absurd stored (by simp)

/-! ### Seen from the slots -/

theorem control_places_eq {targets live : List Nat} (distinct : (targets ++ live).Nodup) :
    controlPlaces targets.length live.length =
      live.map (Layout.permutation (Layout.swaps (targets ++ live))) := by
  have whole := Layout.permutation_swaps distinct
  rw [List.map_append, List.length_append, List.range_add] at whole
  have targetsLength : (targets.map
      (Layout.permutation (Layout.swaps (targets ++ live)))).length =
      (List.range targets.length).length := by
    rw [List.length_map, List.length_range]
  exact (List.append_inj_right whole targetsLength).symm

theorem all_ones_permute {sigma : Equiv.Perm Nat} (rearranges : BasisState.Rearranges sigma)
    (index : BasisState) (positions : List Nat) :
    (index.permute sigma).allOnes (positions.map sigma) = index.allOnes positions := by
  have along : (index.permute sigma).isOne ∘ sigma = index.isOne := by
    funext position
    exact BasisState.is_one_permute_apply rearranges index position
  rw [BasisState.allOnes, BasisState.allOnes, List.all_map, along]

/-- What a plugin is handed of the merged state: the entries that are kept and have all live
controls 1, with the operands at the front. -/
def Hands (merged : SparseState R) (sigma : Equiv.Perm Nat) (live : List Nat)
    (call : PluginCall R) : Prop :=
  ∀ index, call.state.get? (index.permute sigma) =
    if index.allOnes live then (merged.get? index).filter Amplitude.isKept else none

/-- What a plugin's answer makes of the merged state: the answer, moved back, and added to it the
entries in which some live control is 0, without what is not kept. -/
def TakesBack (merged left after : SparseState R) (sigma : Equiv.Perm Nat) (live : List Nat) :
    Prop :=
  ∀ index, after.get? index =
    (match if index.allOnes live then none else merged.get? index with
      | some amplitude => some (((left.get? (index.permute sigma)).getD .zero).add amplitude)
      | none => left.get? (index.permute sigma)).filter Amplitude.isKept

theorem handed_hands {targets live : List Nat} (distinct : (targets ++ live).Nodup)
    (inside : ∀ slot ∈ targets ++ live, slot < width) (merged : SparseState R)
    (arguments : String) (inverse : Bool) :
    Hands merged (Layout.permutation (Layout.swaps (targets ++ live))) live
      (handed (merged.permute (Layout.permutation (Layout.swaps (targets ++ live))))
        targets.length live.length arguments inverse) := by
  have rearranges := Layout.rearranges_permutation (Layout.swaps_bounded distinct inside)
  intro index
  rw [handed_get, control_places_eq distinct, all_ones_permute rearranges,
    SparseState.get_permute rearranges, BasisState.permute_permute_symm rearranges]

theorem rejoined_takes_back {targets live : List Nat} (distinct : (targets ++ live).Nodup)
    (inside : ∀ slot ∈ targets ++ live, slot < width) (merged left : SparseState R) :
    TakesBack merged left
      ((rejoined (merged.permute (Layout.permutation (Layout.swaps (targets ++ live)))) left
        targets.length live.length).permute
          (Layout.permutation (Layout.swaps (targets ++ live))).symm)
      (Layout.permutation (Layout.swaps (targets ++ live))) live := by
  have rearranges := Layout.rearranges_permutation (Layout.swaps_bounded distinct inside)
  intro index
  rw [SparseState.get_permute (BasisState.rearranges_symm rearranges), Equiv.symm_symm,
    rejoined_get, control_places_eq distinct, all_ones_permute rearranges, combined,
    SparseState.get_permute rearranges, BasisState.permute_permute_symm rearranges]
  cases index.allOnes live <;> rfl

end Simulator

/-- In every basis state that is left, each position that is no target is as in some basis state
that was handed over. -/
def PluginCall.KeepsOthers (call : PluginCall R) (left : SparseState R) : Prop :=
  ∀ index, left.Stores index → ∀ position, call.targets ≤ position →
    ∃ given, call.state.Stores given ∧ given.isOne position = index.isOne position

namespace Simulator

section Kept

variable {targets live : List Nat} (distinct : (targets ++ live).Nodup)
  (inside : ∀ slot ∈ targets ++ live, slot < width) {merged left after : SparseState R}
  {call : PluginCall R} (count : call.targets = targets.length)
  (hands : Hands merged (Layout.permutation (Layout.swaps (targets ++ live))) live call)
  (keeps : call.KeepsOthers left)

include distinct

theorem targets_length_le_of_not_mem {slot : Nat} (other : slot ∉ targets) :
    targets.length ≤ Layout.permutation (Layout.swaps (targets ++ live)) slot := by
  let sigma := Layout.permutation (Layout.swaps (targets ++ live))
  have whole := Layout.permutation_swaps distinct
  rw [List.map_append, List.length_append, List.range_add] at whole
  have front : targets.map sigma = List.range targets.length :=
    List.append_inj_left whole (by rw [List.length_map, List.length_range])
  by_contra below
  have taken : sigma slot ∈ targets.map sigma := by
    rw [front, List.mem_range]
    exact Nat.lt_of_not_le below
  obtain ⟨target, member, same⟩ := List.mem_map.1 taken
  rw [sigma.injective same] at member
  exact other member

include inside count hands keeps

/-- Where a plugin keeps the other positions, what it leaves stands at each slot that is no target
as some handed basis state does, in which all live controls are 1. -/
theorem given_of_left {index : BasisState} {slot : Nat} (other : slot ∉ targets)
    (stored : left.Stores
      (index.permute (Layout.permutation (Layout.swaps (targets ++ live))))) :
    ∃ before, merged.Stores before ∧ before.allOnes live = true ∧
      before.isOne slot = index.isOne slot := by
  let sigma := Layout.permutation (Layout.swaps (targets ++ live))
  have rearranges := Layout.rearranges_permutation (Layout.swaps_bounded distinct inside)
  have place := targets_length_le_of_not_mem distinct other
  rw [← count] at place
  obtain ⟨given, ⟨amplitude, handedOver⟩, same⟩ := keeps _ stored (sigma slot) place
  rw [BasisState.is_one_permute_apply rearranges] at same
  have here := hands (given.permute sigma.symm)
  rw [BasisState.permute_symm_permute rearranges, handedOver] at here
  split_ifs at here with ones
  obtain ⟨found, _⟩ := Option.filter_eq_some_iff.1 here.symm
  refine ⟨given.permute sigma.symm, ⟨amplitude, found⟩, ones, ?_⟩
  rw [BasisState.is_one_permute (BasisState.rearranges_symm rearranges), Equiv.symm_symm, same]

/-- It leaves no basis state in which a live control is 0. -/
theorem get_left_of_keeps {index : BasisState} (apart : List.Disjoint targets live)
    (zero : index.allOnes live = false) :
    left.get? (index.permute (Layout.permutation (Layout.swaps (targets ++ live)))) = none := by
  rw [Option.eq_none_iff_forall_ne_some]
  intro amplitude found
  rw [BasisState.allOnes, List.all_eq_false] at zero
  rcases zero with ⟨slot, member, notOne⟩
  obtain ⟨before, _, ones, same⟩ :=
    given_of_left distinct inside count hands keeps (fun target => apart target member)
      ⟨amplitude, found⟩
  rw [BasisState.allOnes, List.all_eq_true] at ones
  rw [← same, ones slot member] at notOne
  exact notOne rfl

theorem get_after_of_keeps
    (takes : TakesBack merged left after
      (Layout.permutation (Layout.swaps (targets ++ live))) live)
    {index : BasisState} (apart : List.Disjoint targets live)
    (zero : index.allOnes live = false) :
    after.get? index =
      ((merged.get? index).map Amplitude.zero.add).filter Amplitude.isKept := by
  have nothing := get_left_of_keeps distinct inside count hands keeps apart zero
  rw [takes index, zero, if_neg Bool.false_ne_true, nothing]
  cases merged.get? index <;> rfl

theorem before_of_after
    (takes : TakesBack merged left after
      (Layout.permutation (Layout.swaps (targets ++ live))) live)
    {index : BasisState} (stored : after.Stores index) {slot : Nat} (other : slot ∉ targets) :
    ∃ before, merged.Stores before ∧ before.isOne slot = index.isOne slot := by
  rcases stored with ⟨amplitude, found⟩
  rw [takes, Option.filter_eq_some_iff] at found
  rcases unseen : (if index.allOnes live then none else merged.get? index) with _ | own
  · rw [unseen] at found
    obtain ⟨before, source, _, same⟩ :=
      given_of_left distinct inside count hands keeps other ⟨amplitude, found.1⟩
    exact ⟨before, source, same⟩
  · split_ifs at unseen
    exact ⟨index, ⟨own, unseen⟩, rfl⟩

end Kept

/-- With targets, and with no control known to be 0, a plugin is run on one call: the entries of the
merged state that are kept and have all live controls 1, with the targets and behind them the live
controls at the front. Nothing but its answer matters. A state that it leaves is moved back and
added to the entries that it was not shown, without what is then negligible; one that it refuses is
as merged. If it keeps the positions that are no targets, a basis state with a live control at 0
keeps its amplitude, to which zero is added, and no other slot gets a value that it did not have. -/
theorem plugin_bridge {simulator : Simulator R} (reached : Reachable (fun _ _ => True) simulator)
    {targets controls : List QubitId} {targetSlots controlSlots live : List Nat}
    (someTarget : targets ≠ [])
    (found : simulator.Operands (targets ++ controls) (targetSlots ++ controlSlots))
    (count : targetSlots.length = targets.length) (matters : Live simulator controlSlots live)
    (arguments : String) (inverse : Bool) :
    ∃ (place : Nat) (merged : Arena R) (partition : Partition R) (sigma : Equiv.Perm Nat)
      (call : PluginCall R),
      (∃ first rest, targetSlots = first :: rest ∧
        simulator.arena.merge first (rest ++ live) = .ok (place, merged)) ∧
      merged.partitions[place]? = some partition ∧
      sigma = Layout.permutation (Layout.swaps (targetSlots ++ live)) ∧
      (targetSlots ++ live).map sigma = List.range (targets.length + live.length) ∧
      call.targets = targets.length ∧ call.controls = live.length ∧
      call.arguments = arguments ∧ call.inverse = inverse ∧
      Hands partition.state sigma live call ∧
      ∀ plugin : Plugin R,
        (∀ left, plugin.run call = (left, .ok ()) →
          ∃ after,
            applyPlugin plugin targets arguments inverse controls simulator =
              .ok (some call) { simulator with arena := merged.withState place after } ∧
            TakesBack partition.state left after sigma live ∧
            (call.KeepsOthers left →
              (∀ index, index.allOnes live = false →
                after.get? index =
                  ((partition.state.get? index).map Amplitude.zero.add).filter Amplitude.isKept) ∧
              ∀ index, after.Stores index → ∀ slot, slot ∉ targetSlots →
                ∃ before, partition.state.Stores before ∧
                  before.isOne slot = index.isOne slot)) ∧
        (∀ left stop, plugin.run call = (left, .error stop) →
          applyPlugin plugin targets arguments inverse controls simulator =
            .error stop { simulator with arena := merged }) := by
  have wellFormed := reachable_well_formed reached
  cases targetSlots with
  | nil => exact absurd (List.eq_nil_of_length_eq_zero count.symm) someTarget
  | cons first rest =>
      have distinct := found.live_distinct matters wellFormed
      have inside := found.live_lt_width matters wellFormed
      have apart : List.Disjoint (first :: rest) live := List.disjoint_of_nodup_append distinct
      obtain ⟨place, merged, partition, gathers⟩ :=
        gather_allocated wellFormed first (rest ++ live)
          (fun _ member => found.live_allocated matters member)
      let sigma := Layout.permutation (Layout.swaps (first :: rest ++ live))
      let call := handed (partition.state.permute sigma) (first :: rest).length live.length
        arguments inverse
      have hands : Hands partition.state sigma live call :=
        handed_hands distinct inside partition.state arguments inverse
      have places := Layout.permutation_swaps distinct
      rw [List.length_append, count] at places
      refine ⟨place, merged, partition, sigma, call, ⟨first, rest, rfl, gathers.result⟩,
        gathers.found, rfl, places, count, rfl, rfl, rfl, hands, fun plugin => ?_⟩
      have answer : applyPlugin plugin targets arguments inverse controls simulator =
          answered simulator merged place partition.state sigma call (plugin.run call) :=
        apply_plugin_eq wellFormed found count matters gathers rfl (by rw [← count]) plugin
      constructor
      · intro left ran
        rw [ran] at answer
        have takes := rejoined_takes_back distinct inside partition.state left
        refine ⟨_, answer, takes, fun keeps => ⟨?_, ?_⟩⟩
        · exact fun index zero =>
            get_after_of_keeps distinct inside rfl hands keeps takes apart zero
        · exact fun index stored slot other =>
            before_of_after distinct inside rfl hands keeps takes stored other
      · intro left stop ran
        rw [ran] at answer
        exact answer

def thirdRotated : Simulator Float :=
  leaves ((Operation.gate .h ⟨2⟩ []).perform
    (leaves ((Operation.gate .x ⟨1⟩ []).perform
      (leaves ((Operation.alloc ⟨3⟩ false).perform
        (leaves ((Operation.alloc ⟨2⟩ false).perform
          (leaves ((Operation.alloc ⟨1⟩ false).perform
            (leaves ((Operation.alloc ⟨0⟩ false).perform (ofSeed width 7))))))))))))

theorem third_rotated_reachable : Reachable (fun _ _ => True) thirdRotated :=
  .step (.step (.step (.step (.step (.step
    (.seeded (.started (fun _ => none) "plugins" "dumps" 7) 7) trivial) trivial) trivial) trivial)
    trivial) trivial

/-- The target comes from the last slot to the front and the control in superposition behind it. The
control that is known is left out. -/
theorem displaced_target_bridged :
    ∃ (sigma : Equiv.Perm Nat) (call : PluginCall Float),
      sigma 3 = 0 ∧ sigma 2 = 1 ∧ call.targets = 1 ∧ call.controls = 1 ∧ call.arguments = "5" ∧
      ∀ (plugin : Plugin Float) (left : SparseState Float), plugin.run call = (left, .ok ()) →
        ∃ after, applyPlugin plugin [⟨3⟩] "5" false [⟨1⟩, ⟨2⟩] thirdRotated =
          .ok (some call) after := by
  have found : thirdRotated.Operands ([⟨3⟩] ++ [⟨1⟩, ⟨2⟩]) ([3] ++ [1, 2]) :=
    ⟨by decide, by decide +kernel⟩
  have matters : Live thirdRotated [1, 2] [2] := ⟨by decide +kernel, by decide +kernel⟩
  obtain ⟨_, _, _, sigma, call, _, _, _, places, targets, controls, arguments, _, _, answers⟩ :=
    plugin_bridge third_rotated_reachable (by simp) found rfl matters "5" false
  have front : [sigma 3, sigma 2] = [0, 1] := places
  rw [List.cons.injEq, List.cons.injEq] at front
  refine ⟨sigma, call, front.1, front.2.1, targets, controls, arguments, fun plugin left ran => ?_⟩
  obtain ⟨_, answer, _⟩ := (answers plugin).1 left ran
  exact ⟨_, answer⟩

end Simulator

end SparseQuantum
