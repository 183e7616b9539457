import Mathlib
import SparseQuantum.Plugin.AddConstant
import SparseQuantum.Proofs.ChangingLimit
import SparseQuantum.Proofs.PluginBridge

/-!
# Partitions keep to their members

As long as plugins keep the positions that are no targets, the basis states of a partition are 0
everywhere but at its members. Then the states that a merge joins have no position in common, and a
slot that nobody has is 0 in every basis state of every partition.
-/

namespace SparseQuantum

set_option autoImplicit false

variable {R : Type} [Scalar R]

namespace Partition

/-- Every basis state of the partition lies inside its members. -/
def Local (partition : Partition R) : Prop :=
  ∀ index, partition.state.Stores index → index.Inside partition.members

omit [Scalar R] in
theorem disjoint_of_local {left right : Partition R} (leftLocal : left.Local)
    (rightLocal : right.Local) (apart : List.Disjoint left.members right.members)
    {first second : BasisState} (firstStored : left.state.Stores first)
    (secondStored : right.state.Stores second) : first.isDisjoint second = true :=
  BasisState.is_disjoint_of_inside (leftLocal first firstStored) (rightLocal second secondStored)
    apart

theorem ground_local (members : List Nat) : (⟨.ground, members⟩ : Partition R).Local := by
  intro index stored
  rw [SparseState.stores_ground stored]
  exact BasisState.inside_zero members

end Partition

namespace Arena

/-- All partitions keep to their members. -/
def Local (arena : Arena R) : Prop :=
  ∀ (place : Nat) (partition : Partition R), arena.partitions[place]? = some partition →
    partition.Local

omit [Scalar R] in
theorem empty_local : (empty : Arena R).Local := by
  intro place partition found
  simp [empty] at found

omit [Scalar R] in
theorem with_state_local {arena : Arena R} (isLocal : arena.Local) {place : Nat}
    {partition : Partition R} (found : arena.partitions[place]? = some partition)
    {state : SparseState R}
    (inside : ∀ index, state.Stores index → index.Inside partition.members) :
    (arena.withState place state).Local := by
  intro other changed there
  rw [partition_with_state] at there
  split_ifs at there with same
  · rw [← same, found, Option.map_some, Option.some.injEq] at there
    rw [← there]
    exact inside
  · exact isLocal other changed there

theorem inserts_local {arena grown : Arena R} {slot place : Nat} (isLocal : arena.Local)
    (inserts : Inserts arena grown slot place) : grown.Local := by
  intro other partition found
  rw [inserts.partitions] at found
  split_ifs at found with here
  · rw [← Option.some.inj found]
    exact Partition.ground_local [slot]
  · exact isLocal other partition found

theorem joins_local {arena after : Arena R} {survivor absorbed : Nat}
    {target taken : Partition R} (isLocal : arena.Local)
    (joins : Joins arena after survivor absorbed target taken) : after.Local := by
  intro other partition found
  rw [joins.partitions] at found
  split_ifs at found with isSurvivor isAbsorbed
  · rw [← Option.some.inj found]
    intro index stored
    obtain ⟨first, second, firstStored, secondStored, same⟩ := SparseState.stores_tensor stored
    rw [same]
    exact BasisState.inside_union
      (isLocal survivor target joins.target_found first firstStored)
      (isLocal absorbed taken joins.taken_found second secondStored)
  · rw [← Option.some.inj found]
    exact Partition.ground_local []
  · exact isLocal other partition found

theorem merges_local {survivor : Nat} {arena merged : Arena R}
    (merges : Merges survivor arena merged) (isLocal : arena.Local) : merged.Local := by
  induction merges with
  | done => exact isLocal
  | join _ joins _ induction => exact induction (joins_local isLocal joins)

theorem detaches_local {arena left : Arena R} {slot place : Nat} {owned : Partition R}
    (isLocal : arena.Local) (detaches : Detaches arena left slot place owned)
    (clear : ∀ index, owned.state.Stores index → index.isOne slot = false) : left.Local := by
  intro other partition found
  rw [detaches.partitions] at found
  split_ifs at found with here
  · rw [← Option.some.inj found, without]
    split_ifs with nobody
    · exact Partition.ground_local []
    · intro index stored position one
      have member := isLocal place owned detaches.found index stored position one
      have different : position ≠ slot := by
        intro same
        rw [same, clear index stored] at one
        exact absurd one (by decide)
      rw [others, List.mem_filter, decide_eq_true_eq]
      exact ⟨member, different⟩
  · exact isLocal other partition found

end Arena

/-! ### Every operation keeps partitions local -/

namespace SparseState

theorem inside_apply_gate {state : SparseState R} {members : List Nat}
    (inside : ∀ index, state.Stores index → index.Inside members) {gate : Gate R} {target : Nat}
    (member : target ∈ members) (controls : List Nat) :
    ∀ index, (state.applyGate gate target controls).Stores index → index.Inside members := by
  intro index stored
  rcases stores_apply_gate stored with ⟨origin, source, same | flipped⟩
  · rw [same]
    exact inside origin source
  · rw [flipped]
    exact BasisState.inside_flip (inside origin source) member

theorem inside_collapse {state : SparseState R} {members : List Nat}
    (inside : ∀ index, state.Stores index → index.Inside members) {position : Nat}
    (member : position ∈ members) (outcome reset : Bool) :
    ∀ index, (state.collapse position outcome reset).Stores index → index.Inside members := by
  intro index stored
  obtain ⟨origin, source, _, same⟩ := stores_collapse stored
  rw [same]
  split_ifs
  · exact BasisState.inside_flip (inside origin source) member
  · exact inside origin source

/-- After a reset the measured position is 0. -/
theorem clear_of_reset {state : SparseState R} {position : Nat} (here : position < width)
    {outcome : Bool} {index : BasisState}
    (stored : (state.collapse position outcome true).Stores index) :
    index.isOne position = false := by
  obtain ⟨origin, _, value, same⟩ := stores_collapse stored
  rw [same]
  cases outcome with
  | false => exact value
  | true =>
      rw [Bool.and_self, if_pos rfl, BasisState.is_one_flip, value]
      simp [here]

end SparseState

namespace Simulator

/-- If the operation runs a plugin with success, the plugin keeps what are no targets. -/
def KeepsOthers (before : Simulator R) : Operation R → Prop
  | .plugin plugin targets arguments inverse controls => ∀ call after,
      applyPlugin plugin targets arguments inverse controls before = .ok (some call) after →
        call.KeepsOthers (plugin.run call).1
  | _ => True

theorem keeps_others_of_plugin {before : Simulator R} (wellFormed : before.WellFormed)
    {plugin : Plugin R}
    (keeps : ∀ call left, plugin.run call = (left, .ok ()) → call.KeepsOthers left)
    (targets : List QubitId) (arguments : String) (inverse : Bool) (controls : List QubitId) :
    KeepsOthers before (.plugin plugin targets arguments inverse controls) := by
  intro call after answer
  have outcome := plugin_outcome wellFormed plugin targets arguments inverse controls
  rw [answer] at outcome
  generalize result : EStateM.Result.ok (some call) after = ended at outcome
  cases outcome with
  | refused => exact absurd result (by simp)
  | skipped => exact absurd result (by simp)
  | idle => exact absurd result (by simp)
  | @ran _ _ _ _ _ _ _ _ shown _ _ _ _ _ _ =>
      rcases ran : plugin.run shown with ⟨left, stop | ⟨⟩⟩
      · rw [ran, answered] at result
        exact absurd result (by simp)
      · rw [ran, answered, EStateM.Result.ok.injEq, Option.some.injEq] at result
        rw [result.1, ran]
        exact keeps shown left ran

/-- A plugin's answer, once it is moved back, stays inside the members. -/
theorem inside_rejoined {before : Simulator R} (wellFormed : before.WellFormed)
    {targets controls : List QubitId} {arguments : String} {inverse : Bool} {first place : Nat}
    {rest controlSlots live : List Nat} {merged : Arena R} {partition : Partition R}
    {sigma : Equiv.Perm Nat} {call : PluginCall R} {left : SparseState R}
    (found : before.Operands (targets ++ controls) (first :: rest ++ controlSlots))
    (count : (first :: rest).length = targets.length) (matters : Live before controlSlots live)
    (gathers : Arena.Gathers before.arena merged first (rest ++ live) place partition)
    (layout : sigma = Layout.permutation (Layout.swaps (first :: rest ++ live)))
    (hands : call = handed (partition.state.permute sigma) targets.length live.length arguments
      inverse)
    (keeps : call.KeepsOthers left) (isLocal : partition.Local) (index : BasisState)
    (stored : ((rejoined (partition.state.permute sigma) left call.targets
      call.controls).permute sigma.symm).Stores index) : index.Inside partition.members := by
  have distinct := found.live_distinct matters wellFormed
  have inside := found.live_lt_width matters wellFormed
  have given : Hands partition.state sigma live call := by
    rw [hands, layout, ← count]
    exact handed_hands distinct inside partition.state arguments inverse
  have takes : TakesBack partition.state left
      ((rejoined (partition.state.permute sigma) left call.targets call.controls).permute
        sigma.symm) sigma live := by
    rw [hands, layout, ← count]
    exact rejoined_takes_back distinct inside partition.state left
  have size : call.targets = (first :: rest).length := by
    rw [hands, count]
    rfl
  intro slot one
  by_cases target : slot ∈ first :: rest
  · exact gathers.members slot
      (List.mem_append_left live target : slot ∈ first :: rest ++ live)
  · rw [layout] at given takes stored
    obtain ⟨origin, source, same⟩ :=
      before_of_after distinct inside size given keeps takes stored target
    exact isLocal origin source slot (by rw [same, one])

/-- One operation, whether it succeeds or not, keeps every partition local. -/
theorem regroups_local {before : Simulator R} (wellFormed : before.WellFormed)
    (isLocal : before.arena.Local) {operation : Operation R} {after : Arena R}
    (regroups : Regroups before operation after) (keeps : KeepsOthers before operation) :
    after.Local := by
  cases regroups with
  | kept => exact isLocal
  | grown _ inserts => exact Arena.inserts_local isLocal inserts
  | @cleaned qubit slot place partition bit _ found owner stands detaches =>
      have member := wellFormed.arena.member_of_owner owner stands
      exact Arena.detaches_local
        (Arena.with_state_local isLocal stands
          (SparseState.inside_collapse (isLocal place partition stands) member bit true))
        detaches
        (fun index stored =>
          SparseState.clear_of_reset (wellFormed.allocated_lt_width ⟨qubit, found⟩) stored)
  | @turned _ _ _ slot place live merged partition gathers =>
      have mergedLocal := Arena.merges_local gathers.merges isLocal
      exact Arena.with_state_local mergedLocal gathers.found
        (SparseState.inside_apply_gate (mergedLocal place partition gathers.found)
          (gathers.members slot List.mem_cons_self) live)
  | @collapsed _ slot place partition bit owner stands =>
      have member := wellFormed.arena.member_of_owner owner stands
      exact Arena.with_state_local isLocal stands
        (SparseState.inside_collapse (isLocal place partition stands) member bit false)
  | gathered gathers => exact Arena.merges_local gathers.merges isLocal
  | rejoined found count matters gathers layout hands ran answer =>
      have mergedLocal := Arena.merges_local gathers.merges isLocal
      obtain ⟨after, success⟩ := answer
      have kept := keeps _ after success
      rw [ran] at kept
      exact Arena.with_state_local mergedLocal gathers.found
        (inside_rejoined wellFormed found count matters gathers layout hands kept
          (mergedLocal _ _ gathers.found))

theorem reachable_local {simulator : Simulator R} (reached : Reachable KeepsOthers simulator) :
    simulator.arena.Local := by
  induction reached with
  | seeded => exact Arena.empty_local
  | limited => exact Arena.empty_local
  | step reached keeps induction =>
      have wellFormed := reachable_well_formed reached
      exact regroups_local wellFormed induction (perform_regroups wellFormed _) keeps

theorem keeps_others_unlimited {before : Simulator R} {operation : Operation R}
    (keeps : KeepsOthers before operation) : KeepsOthers (before.underLimit width) operation := by
  cases operation with
  | plugin plugin targets arguments inverse controls =>
      intro call after answer
      rw [apply_plugin_ignores_limit plugin targets arguments inverse controls before width]
        at answer
      cases result : applyPlugin plugin targets arguments inverse controls before with
      | error stop left =>
          rw [result, resultUnder] at answer
          cases answer
      | ok handled left =>
          rw [result, resultUnder, EStateM.Result.ok.injEq] at answer
          rw [answer.1] at result
          exact keeps call left result
  | _ => trivial

theorem arises_by_local {simulator : Simulator R} (arises : ArisesBy KeepsOthers simulator) :
    simulator.arena.Local := by
  induction arises with
  | seeded => exact Arena.empty_local
  | limited _ _ induction => exact induction
  | @performed before arises operation keeps induction =>
      have sound := arises_sound arises.arises
      rcases perform_unlimited sound.limit_le operation with unchanged | ⟨same, _⟩
      · rw [unchanged]
        exact induction
      · have regroups := perform_regroups sound.unlimited operation
        rw [same, leaves_result_under] at regroups
        exact regroups_local sound.unlimited induction regroups (keeps_others_unlimited keeps)

end Simulator

/-! ### The plugin that adds a constant -/

namespace AddConstant

theorem is_one_with_register_value (index : BasisState) (qubits : Nat) (value : UInt64)
    {position : Nat} (behind : qubits ≤ position) :
    (withRegisterValue index qubits value).isOne position = index.isOne position := by
  have untouched (places : List Nat) (start : BasisState)
      (others : ∀ place ∈ places, place ≠ position) (bit : Nat → Bool) :
      (places.foldl (fun index place => index.set place (bit place)) start).isOne position =
        start.isOne position := by
    induction places generalizing start with
    | nil => rfl
    | cons place rest induction =>
        rw [List.foldl_cons, induction _ fun other member => others other
          (List.mem_cons_of_mem _ member), BasisState.is_one_set, if_neg]
        exact fun here => others place List.mem_cons_self here.1
  apply untouched
  intro place member
  have below := List.mem_range.1 member
  omega

theorem transform_eq_ok {call : PluginCall R} {left : SparseState R}
    (result : transform call = .ok left) :
    left = call.state ∨ ∃ offset, left = shift call.state call.targets offset := by
  rw [transform] at result
  by_cases wide : widestRegister < call.targets
  · rw [if_pos wide] at result
    exact absurd result (by simp)
  · rw [if_neg wide] at result
    cases constant : readConstant call.arguments with
    | error failure =>
        rw [constant] at result
        exact absurd result (by simp [bind, Except.bind])
    | ok value =>
        rw [constant] at result
        change (if call.targets = 0 then Except.ok call.state
          else Except.ok (shift call.state call.targets
            (if call.inverse then -value else value).toUInt64)) = Except.ok left at result
        by_cases nothing : call.targets = 0
        · rw [if_pos nothing] at result
          exact Or.inl (Except.ok.inj result).symm
        · rw [if_neg nothing] at result
          exact Or.inr ⟨_, (Except.ok.inj result).symm⟩

theorem run_eq_ok {call : PluginCall R} {left : SparseState R}
    (ran : plugin.run call = (left, .ok ())) : transform call = .ok left := by
  rw [plugin] at ran
  cases result : transform call with
  | error failure =>
      simp only [result, Plugin.fail, Prod.mk.injEq] at ran
      exact absurd ran.2 (by simp)
  | ok state =>
      simp only [result, Plugin.succeed, Prod.mk.injEq] at ran
      rw [ran.1]

/-- The built-in plugin keeps the positions that are no targets. -/
theorem keeps_others (call : PluginCall R) (left : SparseState R)
    (ran : plugin.run call = (left, .ok ())) : call.KeepsOthers left := by
  intro index stored position behind
  rcases transform_eq_ok (run_eq_ok ran) with same | ⟨offset, same⟩
  · exact ⟨index, by rw [← same]; exact stored, rfl⟩
  · rw [same] at stored
    obtain ⟨entry, member, there⟩ :=
      SparseState.stores_of_entries (SparseState.stores_of_amplitudes stored)
    obtain ⟨origin, source, shifted⟩ := List.mem_map.1 member
    refine ⟨origin.1, SparseState.stores_of_mem_entries source, ?_⟩
    rw [← there, ← shifted]
    exact (is_one_with_register_value origin.1 call.targets _ behind).symm

end AddConstant

/-! ### Joined states -/

namespace Arena

omit [Scalar R] in
theorem owner_of_eq_ok {arena : Arena R} {slot place : Nat}
    (read : arena.ownerOf slot = .ok place) : arena.owner? slot = some place := by
  rw [ownerOf] at read
  cases owner : arena.owner? slot with
  | none =>
      rw [owner] at read
      exact absurd read (by simp)
  | some found =>
      rw [owner] at read
      exact congrArg some (Except.ok.inj read)

omit [Scalar R] in
theorem partition_eq_ok {arena : Arena R} {place : Nat} {found : Partition R}
    (read : arena.partition place = .ok found) : arena.partitions[place]? = some found := by
  rw [partition] at read
  cases stands : arena.partitions[place]? with
  | none =>
      rw [stands] at read
      exact absurd read (by simp)
  | some other =>
      rw [stands] at read
      exact congrArg some (Except.ok.inj read)

theorem absorb_all_owned {arena middle : Arena R} (wellFormed : arena.WellFormed) {survivor : Nat}
    {target : Partition R} (found : arena.partitions[survivor]? = some target)
    (used : survivor ∉ arena.vacant) {slots : List Nat}
    (result : absorbAll survivor arena slots = .ok middle) : ∀ slot ∈ slots, arena.Owns slot := by
  induction slots generalizing arena target with
  | nil => exact fun slot member => absurd member List.not_mem_nil
  | cons slot rest induction =>
      cases read : arena.ownerOf slot with
      | error fault =>
          rw [absorbAll, read] at result
          exact absurd result (by simp [bind, Except.bind])
      | ok place =>
          have owner := owner_of_eq_ok read
          have later : ∀ other ∈ rest, arena.Owns other := by
            rw [absorbAll, read] at result
            change (if place = survivor then absorbAll survivor arena rest
              else (arena.absorb survivor place >>= fun next => absorbAll survivor next rest)) =
                .ok middle at result
            by_cases same : place = survivor
            · rw [if_pos same] at result
              exact induction wellFormed found used result
            · rw [if_neg same] at result
              obtain ⟨taken, takenFound, _, takenUsed⟩ := wellFormed.partition_of_owner owner
              obtain ⟨next, absorbed, joins⟩ :=
                absorb_joins (Ne.symm same) found takenFound used takenUsed
              rw [absorbed] at result
              have joined := joins.partitions survivor
              rw [if_pos rfl] at joined
              have stillUsed : survivor ∉ next.vacant := by
                rw [joins.vacant, List.mem_cons, not_or]
                exact ⟨joins.different, used⟩
              intro other member
              rw [← joins_owns_iff wellFormed joins]
              exact induction (joins_well_formed wellFormed joins) joined stillUsed result other
                member
          intro other member
          rcases List.mem_cons.1 member with same | behind
          · rw [same]
            exact ⟨place, owner⟩
          · exact later other behind

/-- While the partitions of `others` are merged with that of `first`, a join takes the tensor
product of the state of `left` with that of `right`. -/
def MergeJoins (arena : Arena R) (first : Nat) (others : List Nat) (left right : Partition R) :
    Prop :=
  ∃ (earlier later : List Nat) (slot survivor place : Nat) (middle : Arena R),
    others = earlier ++ slot :: later ∧ arena.ownerOf first = .ok survivor ∧
    absorbAll survivor arena earlier = .ok middle ∧ middle.ownerOf slot = .ok place ∧
    place ≠ survivor ∧ middle.partition survivor = .ok left ∧ middle.partition place = .ok right

theorem merge_joins_disjoint {arena : Arena R} (wellFormed : arena.WellFormed)
    (isLocal : arena.Local) {first : Nat} {others : List Nat} {left right : Partition R}
    (meets : arena.MergeJoins first others left right) {index other : BasisState}
    (leftStored : left.state.Stores index) (rightStored : right.state.Stores other) :
    index.isDisjoint other = true := by
  rcases meets with ⟨earlier, later, slot, survivor, place, middle, _, owner, result, _, different,
    leftRead, rightRead⟩
  obtain ⟨target, found, _, used⟩ := wellFormed.partition_of_owner (owner_of_eq_ok owner)
  obtain ⟨merged, reached, merges, _⟩ :=
    absorb_all_merges wellFormed found used earlier
      (absorb_all_owned wellFormed found used result)
  have same : middle = merged := Except.ok.inj (result.symm.trans reached)
  rw [same] at leftRead rightRead
  have leftFound := partition_eq_ok leftRead
  have rightFound := partition_eq_ok rightRead
  have mergedLocal := merges_local merges isLocal
  exact Partition.disjoint_of_local (mergedLocal survivor left leftFound)
    (mergedLocal place right rightFound)
    ((merges_well_formed merges wellFormed).members_disjoint leftFound rightFound different.symm)
    leftStored rightStored

end Arena

namespace Simulator

/-- As long as plugins keep the positions that are no targets, every basis state of a partition is 0
but at members. So different partitions have disjoint basis states, every join is of disjoint ones,
and what is free or was never handed out is 0 everywhere. -/
theorem support_local {simulator : Simulator R} (reached : Reachable KeepsOthers simulator) :
    (∀ (place : Nat) (partition : Partition R),
      simulator.arena.partitions[place]? = some partition → place ∉ simulator.arena.vacant →
      ∀ index, partition.state.Stores index → ∀ position, index.isOne position = true →
        position ∈ partition.members) ∧
    (∀ (first second : Nat) (left right : Partition R), first ≠ second →
      simulator.arena.partitions[first]? = some left →
      simulator.arena.partitions[second]? = some right →
      first ∉ simulator.arena.vacant → second ∉ simulator.arena.vacant →
      ∀ index other, left.state.Stores index → right.state.Stores other →
        index.isDisjoint other = true) ∧
    (∀ (first : Nat) (others : List Nat) (left right : Partition R),
      simulator.arena.MergeJoins first others left right →
      ∀ index other, left.state.Stores index → right.state.Stores other →
        index.isDisjoint other = true) ∧
    (∀ slot, slot ∈ simulator.freeSlots ∨ simulator.nextSlot ≤ slot →
      ∀ (place : Nat) (partition : Partition R),
        simulator.arena.partitions[place]? = some partition →
        ∀ index, partition.state.Stores index → index.isOne slot = false) := by
  have wellFormed := reachable_well_formed reached
  have isLocal := reachable_local reached
  refine ⟨?_, ?_, ?_, ?_⟩
  · exact fun place partition found _ index stored => isLocal place partition found index stored
  · intro first second left right different leftFound rightFound _ _ index other
    exact Partition.disjoint_of_local (isLocal first left leftFound)
      (isLocal second right rightFound)
      (wellFormed.arena.members_disjoint leftFound rightFound different)
  · intro first others left right meets index other
    exact Arena.merge_joins_disjoint wellFormed.arena isLocal meets
  · intro slot nobody place partition found index stored
    rw [Bool.eq_false_iff]
    intro one
    have owned : simulator.arena.Owns slot :=
      ⟨place, wellFormed.arena.owner_of_member found (isLocal place partition found index stored
        slot one)⟩
    rcases nobody with free | fresh
    · exact wellFormed.not_owned_of_free free owned
    · exact wellFormed.not_owned_of_fresh fresh owned

def incremented : Simulator Float :=
  leaves ((Operation.plugin AddConstant.plugin [⟨0⟩, ⟨1⟩] "1" false []).perform
    (leaves ((Operation.alloc ⟨1⟩ false).perform
      (leaves ((Operation.alloc ⟨0⟩ false).perform (ofSeed width 7))))))

theorem incremented_reachable : Reachable KeepsOthers incremented := by
  have allocated : Reachable KeepsOthers
      (leaves ((Operation.alloc ⟨1⟩ false).perform
        (leaves ((Operation.alloc ⟨0⟩ false).perform (ofSeed width 7 : Simulator Float))))) :=
    .step (.step (.seeded (.started (fun _ => none) "plugins" "dumps" 7) 7) trivial) trivial
  exact .step allocated (keeps_others_of_plugin (reachable_well_formed allocated)
    AddConstant.keeps_others [⟨0⟩, ⟨1⟩] "1" false [])

/-- The next slot was not handed out yet: no basis state is 1 there, in any partition. -/
theorem incremented_never_issued : incremented.nextSlot = 2 ∧
    ∀ (place : Nat) (partition : Partition Float),
      incremented.arena.partitions[place]? = some partition →
      ∀ index, partition.state.Stores index → index.isOne 2 = false := by
  have next : incremented.nextSlot = 2 := by decide
  exact ⟨next, (support_local incremented_reachable).2.2.2 2 (Or.inr (Nat.le_of_eq next))⟩

end Simulator

end SparseQuantum
