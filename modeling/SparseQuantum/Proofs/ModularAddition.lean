import Mathlib
import SparseQuantum.Proofs.ConstantAddition
import SparseQuantum.Proofs.KeptAmplitudes
import SparseQuantum.Proofs.KnownSlots
import SparseQuantum.Proofs.Refinement

/-!
# Adding a constant to a register of qubits

Seen in the product of all partitions, a call moves each amplitude from a basis state in which all
controls are 1 to the one whose register holds the sum, wherever the slots of the register stand and
however the partitions were joined. Controls that are left out because they are known do not matter:
the product stores nothing where they have another value. The inverse call finds the operands joined
and moves every amplitude back, even where it has to look at a control that was known before.

Joining partitions multiplies their amplitudes in another order than the product of all partitions
did before. Which basis states are stored does not depend on that, but rounded amplitudes may come
out different, and the inverse call does not take the partitions apart again.
-/

namespace SparseQuantum

set_option autoImplicit false

variable {R : Type} [Scalar R]

namespace Arena

open BasisState

section Added

variable {arena merged : Arena R} {first place : Nat} {others : List Nat} {partition : Partition R}
  {added : SparseState R} {targets live : List Nat} {amount : Int}
  (gathers : Gathers arena merged first others place partition) (isLocal : arena.Local)
  (distinct : targets.Nodup) (inside : ∀ slot ∈ targets, slot < width)
  (apart : List.Disjoint targets live) (operands : targets ++ live ⊆ partition.members)
  (moves : ∀ index, added.get? (addWhere live targets amount index) = partition.state.get? index)

section Moved

include distinct inside apart moves

omit [Scalar R] in
/-- What is stored afterwards was moved there. -/
theorem stored_before_adding {index : BasisState} (stored : added.Stores index) :
    ∃ origin, partition.state.Stores origin ∧ addWhere live targets amount origin = index := by
  obtain ⟨amplitude, found⟩ := stored
  have arrives := (addition distinct inside apart amount).apply_symm_apply index
  change addWhere live targets amount _ = index at arrives
  refine ⟨_, ⟨amplitude, ?_⟩, arrives⟩
  rw [← moves, arrives, found]

include gathers isLocal

theorem known_of_added {slot : Nat} (other : slot ∉ targets) {value : Bool}
    (known : (merged.withState place added).known? slot = some value) :
    arena.known? slot = some value := by
  apply known_of_merges gathers.merges isLocal
  rw [known_eq_some_iff] at known ⊢
  obtain ⟨owning, standing, index, amplitude, owner, stands, entries, bit⟩ := known
  by_cases here : place = owning
  · rw [← here, with_state_stands gathers.found added, Option.some.injEq] at stands
    rw [← stands] at entries
    obtain ⟨found, only⟩ := SparseState.only_of_entries entries
    obtain ⟨origin, source, same⟩ :=
      stored_before_adding distinct inside apart moves ⟨amplitude, found⟩
    have foundBefore : partition.state.get? origin = some amplitude := by
      rw [← moves, same, found]
    have onlyBefore (other : BasisState) (stored : partition.state.Stores other) :
        other = origin := by
      obtain ⟨value, stood⟩ := stored
      have arrived := only (addWhere live targets amount other) ⟨value, by rw [moves, stood]⟩
      apply (addition distinct inside apart amount).injective
      exact arrived.trans same.symm
    refine ⟨place, partition, origin, amplitude, by rw [here]; exact owner, gathers.found,
      SparseState.entries_of_only foundBefore onlyBefore, ?_⟩
    rw [← is_one_add_where_of_not_mem live amount origin other, same, bit]
  · rw [partition_with_state, if_neg here] at stands
    exact ⟨owning, standing, index, amplitude, owner, stands, entries, bit⟩

theorem settled_added {slot : Nat} (other : slot ∉ targets) {value : Bool}
    (settled : arena.Settled slot value) : (merged.withState place added).Settled slot value := by
  have mergedSettled := settled_of_merges gathers.merges isLocal settled
  intro owning standing owner stands index stored
  by_cases here : place = owning
  · rw [← here, with_state_stands gathers.found added, Option.some.injEq] at stands
    rw [← stands] at stored
    obtain ⟨origin, source, same⟩ := stored_before_adding distinct inside apart moves stored
    rw [← same, is_one_add_where_of_not_mem live amount origin other]
    rw [← here] at owner
    exact mergedSettled place partition owner gathers.found origin source
  · rw [partition_with_state, if_neg here] at stands
    exact mergedSettled owning standing owner stands index stored

include operands

theorem with_added_local : (merged.withState place added).Local := by
  have mergedLocal := merges_local gathers.merges isLocal
  apply with_state_local mergedLocal gathers.found
  intro index stored position one
  obtain ⟨origin, source, same⟩ := stored_before_adding distinct inside apart moves stored
  by_cases target : position ∈ targets
  · exact operands (List.mem_append_left live target)
  · apply mergedLocal place partition gathers.found origin source
    rw [← is_one_add_where_of_not_mem live amount origin target, same, one]

end Moved

section Product

include gathers operands

theorem covers_added_iff (controls : List Nat) (index : BasisState) :
    (merged.withState place added).Covers (addWhere controls targets amount index) ↔
      merged.Covers index := by
  refine forall_congr' fun position => ?_
  by_cases target : position ∈ targets
  · have owned : merged.Owns position :=
      ⟨place, gathers.well_formed.owner_of_member gathers.found
        (operands (List.mem_append_left live target))⟩
    exact ⟨fun _ _ => owned, fun _ _ => owned⟩
  · rw [is_one_add_where_of_not_mem controls amount index target]
    rfl

include distinct inside moves

theorem parts_added (index : BasisState) (other : Nat) :
    Option.Rel (fun after before : Partition R =>
        after.part? (addWhere live targets amount index) = before.part? index)
      (merged.withState place added).partitions[other]? merged.partitions[other]? := by
  by_cases here : place = other
  · rw [← here, with_state_stands gathers.found, gathers.found]
    refine .some ?_
    rw [Partition.part?, Partition.part?, restrict_add_where distinct inside
      (fun slot member => operands (List.mem_append_left live member))
      (fun slot member => operands (List.mem_append_right targets member)), moves]
  · rw [partition_with_state, if_neg here]
    cases stands : merged.partitions[other]? with
    | none => exact .none
    | some elsewhere =>
        have away : List.Disjoint targets elsewhere.members := fun slot target member =>
          gathers.well_formed.members_disjoint gathers.found stands here
            (operands (List.mem_append_left live target)) member
        refine .some ?_
        rw [Partition.part?, Partition.part?, restrict_add_where_of_disjoint away]

include isLocal apart

/-- In the product the register is added to where all controls are 1, also those that are not live
because they are known to be 1. -/
theorem whole_added {controls : List Nat} (owned : ∀ slot ∈ controls, arena.Owns slot)
    (known : ∀ slot ∈ controls, slot ∉ live → arena.known? slot = some true)
    (fewer : live ⊆ controls) (apartAll : List.Disjoint targets controls) (index : BasisState) :
    (merged.withState place added).whole.get? (addWhere controls targets amount index) =
      merged.whole.get? index := by
  have mergedLocal := merges_local gathers.merges isLocal
  have addedLocal := with_added_local gathers isLocal distinct inside apart operands moves
  have addedFormed := with_state_well_formed gathers.well_formed gathers.used added
  by_cases ones : index.allOnes controls = true ∨ index.allOnes live = false
  · -- The live controls decide as all controls do.
    have moved : addWhere controls targets amount index = addWhere live targets amount index := by
      rw [addWhere, addWhere]
      rcases ones with all | zero
      · rw [if_pos all, if_pos (all_ones_of_subset fewer all)]
      · have notAll : ¬index.allOnes controls = true := by
          intro all
          rw [all_ones_of_subset fewer all] at zero
          cases zero
        rw [if_neg notAll, zero, if_neg Bool.false_ne_true]
    rw [moved]
    exact get_whole_congr addedFormed addedLocal gathers.well_formed mergedLocal
      (covers_added_iff gathers operands live index) Array.size_modify rfl
      (parts_added gathers distinct inside operands moves index)
  · -- A control that is left out is 0 here, and nothing is stored before or after.
    rw [not_or, Bool.not_eq_false] at ones
    obtain ⟨notAll, liveOnes⟩ := ones
    obtain ⟨slot, member, isZero⟩ := zero_of_not_all_ones notAll
    have notLive : slot ∉ live := not_mem_of_all_ones liveOnes isZero
    have settled := settled_of_known (known slot member notLive)
    have other : slot ∉ targets := fun target => apartAll target member
    have ownedMerged := (merges_owns_iff gathers.merges slot).2 (owned slot member)
    rw [addWhere, if_neg notAll,
      get_whole_of_settled addedFormed addedLocal ownedMerged
        (settled_added gathers isLocal distinct inside apart moves other settled)
        (by simp [isZero]),
      get_whole_of_settled gathers.well_formed mergedLocal ownedMerged
        (settled_of_merges gathers.merges isLocal settled) (by simp [isZero])]

end Product

/-! ### The way back -/

section Back

include gathers

omit operands isLocal distinct inside apart moves in
/-- A known slot stays known unless it was joined with the register. -/
theorem known_elsewhere {slot : Nat} {value : Bool} (known : arena.known? slot = some value)
    (elsewhere : merged.owner? slot ≠ some place) :
    (merged.withState place added).known? slot = some value := by
  rw [known_eq_some_iff] at known ⊢
  obtain ⟨owning, standing, index, amplitude, owner, stands, entries, bit⟩ := known
  obtain ⟨later, laterOwner⟩ := (merges_owns_iff gathers.merges slot).2 ⟨owning, owner⟩
  have different : later ≠ place := by
    intro same
    rw [laterOwner, same] at elsewhere
    exact elsewhere rfl
  obtain ⟨laterStanding, laterStands, _, _⟩ := gathers.well_formed.partition_of_owner laterOwner
  obtain ⟨sameOwner, sameStanding⟩ :=
    owned_elsewhere gathers.merges laterOwner laterStands different
  cases owner.symm.trans sameOwner
  cases stands.symm.trans sameStanding
  refine ⟨owning, standing, index, amplitude, laterOwner, ?_, entries, bit⟩
  rw [partition_with_state, if_neg different.symm]
  exact laterStands

include isLocal distinct inside apart moves

/-- The same controls, some of which may have to be looked at now, take every amplitude back. -/
theorem added_back {controls again : List Nat} {back : SparseState R}
    (pruned : partition.state.Pruned) (more : live ⊆ again) (fewer : again ⊆ controls)
    (apartAll : List.Disjoint targets controls)
    (settled : ∀ slot ∈ again, slot ∉ live →
      merged.owner? slot = some place ∧ arena.known? slot = some true)
    (returns : ∀ index, back.get? (addWhere again targets (-amount) index) =
      (added.get? index).filter Amplitude.isKept) : back = partition.state := by
  have apartAgain : List.Disjoint targets again := fun slot target member =>
    apartAll target (fewer member)
  apply SparseState.ext_get
  intro origin
  have there := add_where_neg distinct inside apartAgain amount origin
  by_cases ones : origin.allOnes live = true → origin.allOnes again = true
  · -- The controls decide as those of the first call did.
    have same : addWhere again targets amount origin = addWhere live targets amount origin := by
      have agree : origin.allOnes again = origin.allOnes live := by
        rw [Bool.eq_iff_iff]
        exact ⟨fun all => all_ones_of_subset more all, ones⟩
      rw [addWhere, addWhere, agree]
    have returned := returns (addWhere again targets amount origin)
    rw [there, same, moves, pruned.filter_get] at returned
    exact returned
  · -- A control that was known to be 1 is 0 here, where nothing is stored before or after.
    rw [Classical.not_imp] at ones
    obtain ⟨liveOnes, notAll⟩ := ones
    obtain ⟨slot, member, isZero⟩ := zero_of_not_all_ones notAll
    have notLive : slot ∉ live := not_mem_of_all_ones liveOnes isZero
    obtain ⟨owner, known⟩ := settled slot member notLive
    have different : origin.isOne slot ≠ true := by simp [isZero]
    have missing : added.get? origin = none :=
      get_of_settled (settled_added gathers isLocal distinct inside apart moves
        (apartAgain.symm member) (settled_of_known known)) owner
        (with_state_stands gathers.found added) different
    have missingBefore : partition.state.get? origin = none :=
      get_of_settled (settled_of_merges gathers.merges isLocal (settled_of_known known)) owner
        gathers.found different
    have idle : addWhere again targets (-amount) origin = origin := by
      rw [addWhere, if_neg notAll]
    have returned := returns origin
    rw [idle, missing] at returned
    rw [returned, missingBefore]
    rfl

end Back

end Added

end Arena

namespace Simulator

open Arena AddConstant BasisState

/-! ### Calls -/

section Calls

variable {simulator : Simulator R} (sound : simulator.Sound) {targets controls : List QubitId}
  {targetSlots controlSlots : List Nat}

section Operands

variable (found : simulator.Operands (targets ++ controls) (targetSlots ++ controlSlots))

include sound found

theorem operands_placed : targetSlots.Nodup ∧ (∀ slot ∈ targetSlots, slot < width) ∧
    List.Disjoint targetSlots controlSlots := by
  have unlimited : (simulator.underLimit width).Operands (targets ++ controls)
      (targetSlots ++ controlSlots) := found
  have distinct := unlimited.distinct sound.unlimited
  refine ⟨distinct.of_append_left, fun slot member => ?_, List.disjoint_of_nodup_append distinct⟩
  exact sound.unlimited.allocated_lt_width (found.allocated (List.mem_append_left _ member))

/-- The product stores nothing where a control that is known to be 0 is 1. -/
theorem whole_of_decided (isLocal : simulator.arena.Local)
    (decided : ∃ slot ∈ controlSlots, simulator.arena.known? slot = some false) (amount : Int)
    (index : BasisState) :
    simulator.globalState.get? (addWhere controlSlots targetSlots amount index) =
      simulator.globalState.get? index := by
  obtain ⟨distinct, inside, apart⟩ := operands_placed sound found
  obtain ⟨slot, member, known⟩ := decided
  have owned : simulator.arena.Owns slot :=
    sound.unlimited.owned_of_allocated (found.allocated (List.mem_append_right _ member))
  have missing (other : BasisState) (ones : other.allOnes controlSlots = true) :
      simulator.globalState.get? other = none := by
    apply get_whole_of_settled sound.unlimited.arena isLocal owned (settled_of_known known)
    rw [allOnes, List.all_eq_true] at ones
    rw [ones slot member]
    decide
  by_cases ones : index.allOnes controlSlots = true
  · rw [missing index ones, missing]
    rw [addWhere, if_pos ones, all_ones_add_at apart, ones]
  · rw [addWhere, if_neg ones]

end Operands

omit [Scalar R] in
theorem Live.known_of_not_mem {simulator : Simulator R} {controls live : List Nat}
    (matters : Live simulator controls live) {slot : Nat} (member : slot ∈ controls)
    (notLive : slot ∉ live) : simulator.arena.known? slot = some true := by
  by_contra unknown
  apply notLive
  rw [matters.kept, List.mem_filter, decide_eq_true_eq]
  exact ⟨member, unknown⟩

section Again

variable {merged : Arena R} {first place : Nat} {rest live : List Nat}
  {partition : Partition R} {added : SparseState R} {amount : Int}
  (isLocal : simulator.arena.Local) (distinct : (first :: rest).Nodup)
  (inside : ∀ slot ∈ first :: rest, slot < width)
  (apart : List.Disjoint (first :: rest) controlSlots)
  (matters : Live simulator controlSlots live)
  (gathers : Gathers simulator.arena merged first (rest ++ live) place partition)
  (moves : ∀ index, added.get? (addWhere live (first :: rest) amount index) =
    partition.state.get? index)

include isLocal distinct inside apart matters gathers moves

omit sound in
/-- All controls that mattered matter again. Others may have been joined with the register, which no
longer shows that they are 1. -/
theorem live_again : ∃ again,
    Live { simulator with arena := merged.withState place added } controlSlots again ∧
    live ⊆ again ∧ ∀ slot ∈ again, slot ∉ live →
      merged.owner? slot = some place ∧ simulator.arena.known? slot = some true := by
  have apartLive : List.Disjoint (first :: rest) live := fun slot target member =>
    apart target (matters.subset member)
  have known {slot : Nat} (member : slot ∈ controlSlots) {value : Bool}
      (later : (merged.withState place added).known? slot = some value) :
      simulator.arena.known? slot = some value :=
    known_of_added gathers isLocal distinct inside apartLive moves (apart.symm member) later
  refine ⟨_, ⟨fun slot member zero => matters.undecided slot member (known member zero), rfl⟩,
    fun slot member => ?_, fun slot member notLive => ?_⟩
  · have control := matters.subset member
    rw [matters.kept, List.mem_filter, decide_eq_true_eq] at member
    rw [List.mem_filter, decide_eq_true_eq]
    exact ⟨control, fun one => member.2 (known control one)⟩
  · rw [List.mem_filter, decide_eq_true_eq] at member
    have one := matters.known_of_not_mem member.1 notLive
    refine ⟨?_, one⟩
    by_contra elsewhere
    exact member.2 (known_elsewhere gathers one elsewhere)

omit sound isLocal distinct inside apart matters moves in
theorem gathers_again {again : List Nat} (joined : ∀ slot ∈ again, slot ∉ live →
      merged.owner? slot = some place) :
    Gathers (merged.withState place added) (merged.withState place added) first (rest ++ again)
      place { partition with state := added } := by
  have stands := with_state_stands gathers.found added
  have wellFormed := with_state_well_formed gathers.well_formed gathers.used added
  have here : ∀ slot ∈ first :: (rest ++ again),
      (merged.withState place added).owner? slot = some place := by
    intro slot member
    rw [← List.cons_append, List.mem_append] at member
    rcases member with target | control
    · exact gathers.owner_eq (List.mem_append_left live target)
    · by_cases isLive : slot ∈ live
      · exact gathers.owner_eq (List.mem_append_right (first :: rest) isLive)
      · exact joined slot control isLive
  exact ⟨merge_of_owned here, .done _, wellFormed, stands, gathers.used,
    fun slot member => wellFormed.member_of_owner (here slot member) stands⟩

end Again

variable (zeroAdd : ∀ amplitude : Amplitude R, Amplitude.zero.add amplitude = amplitude)
  (isLocal : simulator.arena.Local)

include sound zeroAdd isLocal

section Adding

variable {first place : Nat} {rest live : List Nat}
  (found : simulator.Operands (targets ++ controls) (first :: rest ++ controlSlots))
  (count : (first :: rest).length = targets.length) (fits : targets.length ≤ widestRegister)
  (matters : Live simulator controlSlots live) {merged : Arena R} {partition : Partition R}
  (gathers : Gathers simulator.arena merged first (rest ++ live) place partition)
  (pruned : partition.state.Pruned) {arguments : String} {constant : Int64}
  (reads : readConstant arguments = .ok constant)

include found count fits matters gathers pruned reads

/-- Adding moves the amplitudes of the partition, and those of the product alike. -/
theorem add_moves :
    ∃ (call : PluginCall R) (added : SparseState R),
      applyPlugin plugin targets arguments false controls simulator =
        .ok (some call) { simulator with arena := merged.withState place added } ∧
      (∀ index, added.get? (addWhere live (first :: rest) constant.toInt index) =
        partition.state.get? index) ∧
      ∀ index, (merged.withState place added).whole.get?
          (addWhere controlSlots (first :: rest) constant.toInt index) =
        merged.whole.get? index := by
  obtain ⟨distinct, inside, apart⟩ := operands_placed sound found
  have apartLive : List.Disjoint (first :: rest) live := fun slot target member =>
    apart target (matters.subset member)
  have owned : ∀ slot ∈ controlSlots, simulator.arena.Owns slot := fun slot member =>
    sound.unlimited.owned_of_allocated (found.allocated (List.mem_append_right _ member))
  obtain ⟨call, added, answer, addedWhere⟩ :=
    add_succeeds zeroAdd sound found count fits matters gathers reads false
  have moves : ∀ index, added.get? (addWhere live (first :: rest) constant.toInt index) =
      partition.state.get? index := fun index => (addedWhere index).trans (pruned.filter_get index)
  exact ⟨call, added, answer, moves, whole_added gathers isLocal distinct inside apartLive
    gathers.members moves owned (fun _ => matters.known_of_not_mem) matters.subset apart⟩

theorem add_and_back :
    ∃ (call back : PluginCall R) (added : SparseState R),
      applyPlugin plugin targets arguments false controls simulator =
        .ok (some call) { simulator with arena := merged.withState place added } ∧
      applyPlugin plugin targets arguments true controls
          { simulator with arena := merged.withState place added } =
        .ok (some back) { simulator with arena := merged } ∧
      ∀ index, (merged.withState place added).whole.get?
          (addWhere controlSlots (first :: rest) constant.toInt index) =
        merged.whole.get? index := by
  obtain ⟨distinct, inside, apart⟩ := operands_placed sound found
  have apartLive : List.Disjoint (first :: rest) live := fun slot target member =>
    apart target (matters.subset member)
  obtain ⟨call, added, answer, moves, moved⟩ :=
    add_moves sound zeroAdd isLocal found count fits matters gathers pruned reads
  have soundAfter := sound_perform sound (.plugin plugin targets arguments false controls)
  rw [Operation.perform, Operation.leaves_discard, answer] at soundAfter
  obtain ⟨again, mattersAfter, more, joined⟩ :=
    live_again isLocal distinct inside apart matters gathers moves
  have gathersAfter : Gathers (merged.withState place added) (merged.withState place added) first
      (rest ++ again) place { partition with state := added } :=
    gathers_again gathers fun slot member notLive => (joined slot member notLive).1
  obtain ⟨back, returned, answerAfter, returns⟩ :=
    add_succeeds zeroAdd soundAfter found count fits mattersAfter gathersAfter reads true
  have same : returned = partition.state := added_back gathers isLocal distinct inside apartLive
    moves pruned more mattersAfter.subset apart joined returns
  rw [same, with_state_with_state, with_state_self gathers.found] at answerAfter
  exact ⟨call, back, added, answer, answerAfter, moved⟩

end Adding

end Calls

/-! ### Any run, any register -/

/-- No amplitude falls below the threshold when targets are joined with the live controls. -/
def KeptWhenGathered (simulator : Simulator R) (targets controls : List Nat) : Prop :=
  ∀ (first place : Nat) (rest live : List Nat) (merged : Arena R) (partition : Partition R),
    targets = first :: rest → Live simulator controls live →
    Gathers simulator.arena merged first (rest ++ live) place partition → partition.state.Pruned

/-- Operands that share a partition, apart from controls whose value is known, are not joined. -/
theorem gathers_together {simulator : Simulator R} {controlSlots live rest : List Nat}
    {merged : Arena R} {first shared place : Nat} {partition : Partition R}
    (matters : Live simulator controlSlots live)
    (gathers : Gathers simulator.arena merged first (rest ++ live) place partition)
    (targetsShare : ∀ slot ∈ first :: rest, simulator.arena.owner? slot = some shared)
    (controlsShare : ∀ slot ∈ controlSlots, simulator.arena.owner? slot = some shared ∨
      (simulator.arena.known? slot).isSome = true) : merged = simulator.arena := by
  have share : ∀ slot ∈ first :: (rest ++ live), simulator.arena.owner? slot = some shared := by
    intro slot member
    rw [← List.cons_append, List.mem_append] at member
    rcases member with target | control
    · exact targetsShare slot target
    · apply (controlsShare slot (matters.subset control)).resolve_right
      have notZero := matters.undecided slot (matters.subset control)
      rw [matters.kept, List.mem_filter, decide_eq_true_eq] at control
      cases known : simulator.arena.known? slot with
      | none => simp
      | some value =>
          cases value with
          | false => exact absurd known notZero
          | true => exact absurd known control.2
  have result := gathers.result
  rw [merge_of_owned share, Except.ok.injEq, Prod.mk.injEq] at result
  exact result.2.symm

/-- A call that moves basis states, and the inverse call behind it. In between the amplitudes are
those of the product as the call has joined its partitions; in the end nothing but that stays. -/
structure ThereAndBack (move : BasisState → BasisState) (targetSlots controlSlots : List Nat)
    (before after again : Simulator R) : Prop where
  moved : ∀ index, after.globalState.get? (move index) = again.globalState.get? index
  rest : after = { before with arena := after.arena }
  rest_again : again = { before with arena := again.arena }
  joined : ∃ place, Merges place before.arena again.arena
  stored : ∀ index, again.globalState.Stores index ↔ before.globalState.Stores index
  together : ∀ place, (∀ slot ∈ targetSlots, before.arena.owner? slot = some place) →
    (∀ slot ∈ controlSlots, before.arena.owner? slot = some place ∨
      (before.arena.known? slot).isSome = true) → again = before
  restored : ProductLaws R → again.globalState = before.globalState

/-- Adding a constant to a register of up to 64 qubits permutes the basis states of the product of
all partitions: where all controls are 1 the number in the register, its first qubit most
significant, has the constant added modulo the register's range; nothing else changes. The inverse
call takes every amplitude back. Partitions that were joined stay joined, which the product does not
show where amplitudes can be multiplied in any order. -/
theorem addition_modular
    (zeroAdd : ∀ amplitude : Amplitude R, Amplitude.zero.add amplitude = amplitude)
    {simulator : Simulator R} (arises : ArisesBy KeepsOthers simulator)
    {targets controls : List QubitId} {targetSlots controlSlots : List Nat}
    (someTarget : targets ≠ []) (fits : targets.length ≤ 64)
    (found : simulator.Operands (targets ++ controls) (targetSlots ++ controlSlots))
    (count : targetSlots.length = targets.length)
    (kept : simulator.KeptWhenGathered targetSlots controlSlots)
    {arguments : String} {constant : Int64}
    (written : Text.Writes arguments.toList constant.toInt) :
    ∃ (move : Equiv.Perm BasisState) (call back : Option (PluginCall R))
        (after again : Simulator R),
      Adds move targetSlots controlSlots constant.toInt ∧
      applyPlugin plugin targets arguments false controls simulator = .ok call after ∧
      applyPlugin plugin targets arguments true controls after = .ok back again ∧
      ThereAndBack move targetSlots controlSlots simulator after again := by
  have sound := arises_sound arises.arises
  have isLocal := arises_by_local arises
  obtain ⟨distinct, inside, apart⟩ := operands_placed sound found
  let move := addition distinct inside apart constant.toInt
  have adds : Adds move targetSlots controlSlots constant.toInt :=
    add_where_adds distinct inside controlSlots constant.toInt
  by_cases decided : ∃ slot ∈ controlSlots, simulator.arena.known? slot = some false
  · have skipped := apply_plugin_skipped sound found count decided plugin arguments
    refine ⟨move, none, none, simulator, simulator, adds, skipped false, skipped true, ?_⟩
    exact {
      moved := whole_of_decided sound found isLocal decided constant.toInt
      rest := rfl
      rest_again := rfl
      joined := ⟨0, .done _⟩
      stored := fun _ => Iff.rfl
      together := fun _ _ _ => rfl
      restored := fun _ => rfl }
  · have matters : Live simulator controlSlots _ :=
      ⟨fun slot member zero => decided ⟨slot, member, zero⟩, rfl⟩
    cases targetSlots with
    | nil => exact absurd (List.eq_nil_of_length_eq_zero count.symm) someTarget
    | cons first rest =>
        obtain ⟨place, merged, partition, gathers⟩ := gather_allocated sound.unlimited first _
          fun slot member => found.live_allocated matters member
        obtain ⟨call, back, added, answer, answerBack, moved⟩ :=
          add_and_back sound zeroAdd isLocal found count fits matters gathers
            (kept first place rest _ merged partition rfl matters gathers)
            (read_constant_eq written)
        refine ⟨move, some call, some back, _, _, adds, answer, answerBack, ?_⟩
        exact {
          moved := moved
          rest := rfl
          rest_again := rfl
          joined := ⟨place, gathers.merges⟩
          stored := stores_whole_of_merges gathers.merges isLocal
          together := fun shared targetsShare controlsShare => by
            rw [gathers_together matters gathers targetsShare controlsShare]
          restored := fun laws => whole_of_merges laws gathers.merges isLocal }

theorem flipped_kept_when_gathered : flipped.KeptWhenGathered [1] [0] := by
  intro first place rest live merged partition targets matters gathers
  have nobody : live = [] := by
    rw [matters.kept]
    decide +kernel
  obtain ⟨rfl, rfl⟩ := List.cons.inj targets
  have owner : flipped.arena.owner? 1 = some 1 := by decide +kernel
  have alone : flipped.arena.merge 1 [] = .ok (1, flipped.arena) :=
    Arena.merge_of_owned fun slot member => by rw [List.mem_singleton.1 member, owner]
  have result := gathers.result
  rw [nobody, List.append_nil, alone, Except.ok.injEq, Prod.mk.injEq] at result
  have stands : flipped.arena.partitions[1]? = some (.singleton 1) := by rfl
  have found := gathers.found
  rw [← result.1, ← result.2, stands, Option.some.injEq] at found
  rw [← found]
  exact SparseState.pruned_ground SparseState.real_threshold_le_one

/-- Taking 3 from a register of one qubit flips it, under a control that is known and left out. -/
theorem flipped_counted_down :
    ([⟨1⟩] : List QubitId) ≠ [] ∧ flipped.Operands ([⟨1⟩] ++ [⟨0⟩]) ([1] ++ [0]) ∧
      ∃ (move : Equiv.Perm BasisState) (call back : Option (PluginCall ℝ))
          (after again : Simulator ℝ),
        Adds move [1] [0] (-3) ∧
        applyPlugin plugin [⟨1⟩] " -3" false [⟨0⟩] flipped = .ok call after ∧
        applyPlugin plugin [⟨1⟩] " -3" true [⟨0⟩] after = .ok back again ∧
        again = flipped ∧
        ∀ index, after.globalState.get? (move index) = flipped.globalState.get? index := by
  have arises : ArisesBy KeepsOthers flipped :=
    .performed (.performed (.performed
      (.seeded (.started (fun _ => none) "plugins" "dumps" 7) 7) trivial) trivial) trivial
  have someTarget : ([⟨1⟩] : List QubitId) ≠ [] := List.cons_ne_nil _ _
  have found : flipped.Operands ([⟨1⟩] ++ [⟨0⟩]) ([1] ++ [0]) := ⟨by decide, by decide +kernel⟩
  have written : Text.Writes " -3".toList (-3 : Int64).toInt :=
    @Text.Writes.negative [' '] ['3'] [] (by decide) (by decide) (by decide) (by decide)
  obtain ⟨move, call, back, after, again, adds, answer, answerBack, thereAndBack⟩ :=
    addition_modular (fun amplitude => zero_add amplitude) arises someTarget (by decide) found rfl
      flipped_kept_when_gathered written
  have alone : ∀ slot ∈ [1], flipped.arena.owner? slot = some 1 := by decide +kernel
  have known : ∀ slot ∈ [0], flipped.arena.owner? slot = some 1 ∨
      (flipped.arena.known? slot).isSome = true := by decide +kernel
  have same : again = flipped := thereAndBack.together 1 alone known
  have moved := thereAndBack.moved
  rw [thereAndBack.restored product_laws] at moved
  exact ⟨someTarget, found, move, call, back, after, again, adds, answer, answerBack, same, moved⟩

/-! ### Rounded amplitudes -/

/-- Three qubits in superposition, the last of them turned back. Each has its own partition. -/
def turnedBack : Simulator Float :=
  leaves ((Operation.gate .h ⟨2⟩ []).perform
    (leaves ((Operation.gate .h ⟨2⟩ []).perform
      (leaves ((Operation.gate .h ⟨1⟩ []).perform
        (leaves ((Operation.gate .h ⟨0⟩ []).perform
          (leaves ((Operation.alloc ⟨2⟩ false).perform
            (leaves ((Operation.alloc ⟨1⟩ false).perform
              (leaves ((Operation.alloc ⟨0⟩ false).perform (ofSeed width 7))))))))))))))

theorem turned_back_arises : ArisesBy KeepsOthers turnedBack :=
  .performed (.performed (.performed (.performed (.performed (.performed (.performed
    (.seeded (.started (fun _ => none) "plugins" "dumps" 7) 7) trivial) trivial) trivial) trivial)
    trivial) trivial) trivial

/-- Every amplitude reaches the threshold and comes out of a sum with zero as it was. -/
def HasPlainAmplitudes (simulator : Simulator Float) : Prop :=
  ∀ partition ∈ simulator.arena.partitions, ∀ entry ∈ partition.state.entries,
    entry.2.isKept = true ∧ (Amplitude.zero.add entry.2).re = entry.2.re ∧
      (Amplitude.zero.add entry.2).im = entry.2.im

instance (simulator : Simulator Float) : Decidable simulator.HasPlainAmplitudes :=
  inferInstanceAs (Decidable (∀ partition ∈ simulator.arena.partitions,
    ∀ entry ∈ partition.state.entries, _ ∧ _ ∧ _))

def countLastTwo (inverse : Bool) (simulator : Simulator Float) :
    EStateM.Result Stop (Simulator Float) (Option (PluginCall Float)) :=
  applyPlugin plugin [⟨1⟩, ⟨2⟩] "1" inverse [] simulator

def countedUp : Simulator Float := leaves (countLastTwo false turnedBack)

def countedBack : Simulator Float := leaves (countLastTwo true countedUp)

def realBits (simulator : Simulator Float) (index : BasisState) : Option UInt64 :=
  (simulator.globalState.get? index).map (·.re.toBits)

theorem get_ne_of_real_bits {first second : Simulator Float} {left right : BasisState}
    (different : first.realBits left ≠ second.realBits right) :
    first.globalState.get? left ≠ second.globalState.get? right := by
  intro same
  apply different
  rw [realBits, same, realBits]

theorem turned_back_kept_when_gathered : turnedBack.KeptWhenGathered [1, 2] [] := by
  intro first place rest live merged partition targets matters gathers
  have nobody : live = [] := matters.kept
  obtain ⟨rfl, rfl⟩ := List.cons.inj targets
  have kept : (turnedBack.arena.merge 1 [2]).toOption.all (fun gathered =>
      (gathered.2.partitions[gathered.1]?).all fun partition =>
        partition.state.entries.all (·.2.isKept)) = true := by decide +kernel
  have result := gathers.result
  rw [nobody, List.append_nil] at result
  rw [result, Except.toOption, Option.all_some, gathers.found, Option.all_some,
    List.all_eq_true] at kept
  intro index amplitude found
  have listed := (SparseState.mem_entries_iff partition.state index amplitude).2 found
  exact kept (index, amplitude) listed

/-- Adding 1 to the last two qubits joins their partitions. Multiplied in another order, a rounded
amplitude of the product changes its last digit, and taking 1 away does not bring it back. -/
theorem regrouped_amplitude_changes :
    ArisesBy KeepsOthers turnedBack ∧
      turnedBack.Operands ([⟨1⟩, ⟨2⟩] ++ []) ([1, 2] ++ []) ∧
      turnedBack.KeptWhenGathered [1, 2] [] ∧ Text.Writes "1".toList 1 ∧
      ∃ (call back : Option (PluginCall Float)) (after again : Simulator Float),
        applyPlugin plugin [⟨1⟩, ⟨2⟩] "1" false [] turnedBack = .ok call after ∧
        applyPlugin plugin [⟨1⟩, ⟨2⟩] "1" true [] after = .ok back again ∧
        turnedBack.HasPlainAmplitudes ∧ after.HasPlainAmplitudes ∧ again.HasPlainAmplitudes ∧
        Adds (addWhere [] [1, 2] 1) [1, 2] [] 1 ∧ addWhere [] [1, 2] 1 .zero = .ofOnes [2] ∧
        after.globalState.get? (.ofOnes [2]) ≠ turnedBack.globalState.get? .zero ∧
        again.globalState ≠ turnedBack.globalState := by
  have found : turnedBack.Operands ([⟨1⟩, ⟨2⟩] ++ []) ([1, 2] ++ []) :=
    ⟨by decide, by decide +kernel⟩
  have written : Text.Writes "1".toList 1 :=
    @Text.Writes.plain [] ['1'] [] (by decide) (by decide) (by decide) (by decide)
  have up : ¬Fails (countLastTwo false turnedBack) := by decide +kernel
  have down : ¬Fails (countLastTwo true countedUp) := by decide +kernel
  obtain ⟨call, answer⟩ := ok_of_not_fails up
  obtain ⟨back, answerBack⟩ := ok_of_not_fails down
  have before : turnedBack.realBits .zero = some 4602678819172646914 := by decide +kernel
  have changed : countedUp.realBits (.ofOnes [2]) = some 4602678819172646913 := by decide +kernel
  have again : countedBack.realBits .zero = some 4602678819172646913 := by decide +kernel
  have moved : countedUp.globalState.get? (.ofOnes [2]) ≠ turnedBack.globalState.get? .zero := by
    apply get_ne_of_real_bits
    rw [changed, before]
    decide
  have kept : countedBack.globalState.get? .zero ≠ turnedBack.globalState.get? .zero := by
    apply get_ne_of_real_bits
    rw [again, before]
    decide
  refine ⟨turned_back_arises, found, turned_back_kept_when_gathered, written, call, back, countedUp,
    countedBack, answer, answerBack, by decide +kernel, by decide +kernel, by decide +kernel,
    add_where_adds (by decide) (by decide) [] 1, by decide +kernel, moved, ?_⟩
  intro same
  apply kept
  rw [same]

end Simulator

end SparseQuantum
