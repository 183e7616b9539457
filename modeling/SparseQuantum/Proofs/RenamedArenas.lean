import Mathlib
import SparseQuantum.Proofs.RenamedStates

/-!
# Arenas with renamed slots

What matters of an arena is the partition that owns each slot; the place at which that partition
stands is not seen by any operation. Two arenas rename one another when the partitions that own
corresponding slots are the same up to the names of slots. Every operation on arenas keeps this, and
merging joins corresponding partitions in the same order.
-/

namespace SparseQuantum

set_option autoImplicit false

variable {R : Type}

namespace Partition

def rename (partition : Partition R) (sigma : Equiv.Perm Nat) : Partition R :=
  ⟨partition.state.permute sigma, partition.members.map sigma⟩

theorem state_rename (partition : Partition R) (sigma : Equiv.Perm Nat) :
    (partition.rename sigma).state = partition.state.permute sigma := rfl

theorem mem_rename_iff {partition : Partition R} {sigma : Equiv.Perm Nat} {slot : Nat} :
    sigma slot ∈ (partition.rename sigma).members ↔ slot ∈ partition.members :=
  List.mem_map_of_injective sigma.injective

theorem rename_symm_rename {sigma : Equiv.Perm Nat} (rearranges : BasisState.Rearranges sigma)
    (partition : Partition R) : (partition.rename sigma).rename sigma.symm = partition := by
  rw [rename, rename, SparseState.permute_permute_symm rearranges, List.map_map,
    Equiv.symm_comp_self, List.map_id]

theorem rename_of_local {sigma tau : Equiv.Perm Nat} (rearranges : BasisState.Rearranges sigma)
    (others : BasisState.Rearranges tau) {partition : Partition R} (isLocal : partition.Local)
    (same : ∀ slot ∈ partition.members, sigma slot = tau slot) :
    partition.rename sigma = partition.rename tau := by
  rw [rename, rename, SparseState.permute_of_inside rearranges others same isLocal,
    List.map_congr_left same]

variable [Scalar R]

theorem rename_singleton {sigma : Equiv.Perm Nat} (rearranges : BasisState.Rearranges sigma)
    (slot : Nat) : (singleton slot : Partition R).rename sigma = singleton (sigma slot) := by
  rw [singleton, rename, SparseState.permute_ground rearranges]
  rfl

theorem both_rename {sigma : Equiv.Perm Nat} (rearranges : BasisState.Rearranges sigma)
    {target taken : Partition R} (targetLocal : target.Local) (takenLocal : taken.Local)
    (apart : List.Disjoint target.members taken.members) :
    Arena.both (target.rename sigma) (taken.rename sigma) =
      (Arena.both target taken).rename sigma := by
  have disjoint : ∀ first second, target.state.Stores first → taken.state.Stores second →
      first.isDisjoint second = true :=
    fun _ _ => disjoint_of_local targetLocal takenLocal apart
  rw [Arena.both, Arena.both, rename, rename, rename, List.map_append,
    SparseState.permute_tensor rearranges disjoint]

omit [Scalar R] in
theorem others_rename (partition : Partition R) (sigma : Equiv.Perm Nat) (slot : Nat) :
    Arena.others (partition.rename sigma) (sigma slot) =
      (Arena.others partition slot).map sigma := by
  rw [Arena.others, Arena.others, rename, List.filter_map]
  congr 1
  apply List.filter_congr
  intro other _
  simp

end Partition

namespace Arena

/-! ### The partition that owns a slot -/

def partitionOf? (arena : Arena R) (slot : Nat) : Option (Partition R) :=
  (arena.owner? slot).bind fun place => arena.partitions[place]?

theorem partition_of_owner {arena : Arena R} {slot place : Nat} {partition : Partition R}
    (owner : arena.owner? slot = some place) (found : arena.partitions[place]? = some partition) :
    arena.partitionOf? slot = some partition := by
  rw [partitionOf?, owner, Option.bind_some, found]

theorem known_iff_partition_of (arena : Arena R) (slot : Nat) (value : Bool) :
    arena.known? slot = some value ↔ ∃ partition index amplitude,
      arena.partitionOf? slot = some partition ∧ partition.state.entries = [(index, amplitude)] ∧
        index.isOne slot = value := by
  rw [known_eq_some_iff]
  constructor
  · rintro ⟨place, partition, index, amplitude, owner, found, entries, bit⟩
    exact ⟨partition, index, amplitude, partition_of_owner owner found, entries, bit⟩
  · rintro ⟨partition, index, amplitude, standing, entries, bit⟩
    rw [partitionOf?, Option.bind_eq_some_iff] at standing
    obtain ⟨place, owner, found⟩ := standing
    exact ⟨place, partition, index, amplitude, owner, found, entries, bit⟩

variable [Scalar R]

def AbsentAt (arena : Arena R) (place slot : Nat) : Prop :=
  ∀ partition, arena.partitions[place]? = some partition → slot ∉ partition.members

omit [Scalar R] in
theorem absent_of_found {arena : Arena R} {place slot : Nat} {partition : Partition R}
    (found : arena.partitions[place]? = some partition) (absent : slot ∉ partition.members) :
    arena.AbsentAt place slot := by
  intro other stands
  rw [found, Option.some.injEq] at stands
  rw [← stands]
  exact absent

section WellFormed

variable {arena : Arena R} (wellFormed : arena.WellFormed)

include wellFormed

theorem partition_of_eq_some_iff {slot : Nat} {partition : Partition R} :
    arena.partitionOf? slot = some partition ↔
      ∃ place : Nat, arena.partitions[place]? = some partition ∧ slot ∈ partition.members := by
  rw [partitionOf?, Option.bind_eq_some_iff]
  refine exists_congr fun place => ?_
  constructor
  · rintro ⟨owner, found⟩
    exact ⟨found, wellFormed.member_of_owner owner found⟩
  · rintro ⟨found, member⟩
    exact ⟨wellFormed.owner_of_member found member, found⟩

theorem partition_of_member {place slot : Nat} {partition : Partition R}
    (found : arena.partitions[place]? = some partition) (member : slot ∈ partition.members) :
    arena.partitionOf? slot = some partition :=
  (partition_of_eq_some_iff wellFormed).2 ⟨place, found, member⟩

theorem owns_iff_partition_of {slot : Nat} :
    arena.Owns slot ↔ ∃ partition, arena.partitionOf? slot = some partition := by
  constructor
  · rintro ⟨place, owner⟩
    obtain ⟨partition, found, _⟩ := wellFormed.partition_of_owner owner
    exact ⟨partition, partition_of_owner owner found⟩
  · rintro ⟨partition, standing⟩
    rw [partitionOf?, Option.bind_eq_some_iff] at standing
    obtain ⟨place, owner, _⟩ := standing
    exact ⟨place, owner⟩

theorem partition_of_congr {after : Arena R} (afterFormed : after.WellFormed) {slot : Nat}
    (same : ∀ place : Nat, after.partitions[place]? = arena.partitions[place]? ∨
      after.AbsentAt place slot ∧ arena.AbsentAt place slot) :
    after.partitionOf? slot = arena.partitionOf? slot := by
  apply Option.ext
  intro partition
  rw [partition_of_eq_some_iff wellFormed, partition_of_eq_some_iff afterFormed]
  refine exists_congr fun place => and_congr_left fun member => ?_
  rcases same place with unchanged | ⟨absentAfter, absent⟩
  · rw [unchanged]
  · exact ⟨fun found => absurd member (absentAfter partition found),
      fun found => absurd member (absent partition found)⟩

/-! ### What operations do to it -/

theorem partition_of_with_state {place : Nat} {partition : Partition R}
    (found : arena.partitions[place]? = some partition) (used : place ∉ arena.vacant)
    (state : SparseState R) (slot : Nat) :
    (arena.withState place state).partitionOf? slot =
      if slot ∈ partition.members then some { partition with state }
      else arena.partitionOf? slot := by
  have afterFormed := with_state_well_formed wellFormed used state
  have stands := with_state_stands found state
  split_ifs with member
  · exact partition_of_member afterFormed stands member
  · apply partition_of_congr wellFormed afterFormed
    intro other
    by_cases here : place = other
    · rw [← here]
      exact Or.inr ⟨absent_of_found stands member, absent_of_found found member⟩
    · exact Or.inl (by rw [partition_with_state, if_neg here])

theorem partition_of_inserts {grown : Arena R} (grownFormed : grown.WellFormed) {slot place : Nat}
    (inserts : Inserts arena grown slot place) (other : Nat) :
    grown.partitionOf? other =
      if other = slot then some (.singleton slot) else arena.partitionOf? other := by
  have stands := (inserts.partitions place).trans (if_pos rfl)
  split_ifs with same
  · rw [same]
    exact partition_of_member grownFormed stands (List.mem_singleton_self slot)
  · apply partition_of_congr wellFormed grownFormed
    intro there
    by_cases here : there = place
    · rw [here]
      refine Or.inr ⟨absent_of_found stands fun member => same (List.mem_singleton.1 member), ?_⟩
      rcases inserts.before with cleared | missing
      · exact absent_of_found cleared List.not_mem_nil
      · intro partition found
        rw [missing] at found
        cases found
    · exact Or.inl (by rw [inserts.partitions, if_neg here])

theorem partition_of_joins {after : Arena R} {survivor absorbed : Nat} {target taken : Partition R}
    (joins : Joins arena after survivor absorbed target taken) (slot : Nat) :
    after.partitionOf? slot =
      if slot ∈ (both target taken).members then some (both target taken)
      else arena.partitionOf? slot := by
  have afterFormed := joins_well_formed wellFormed joins
  have joined := (joins.partitions survivor).trans (if_pos rfl)
  have cleared := (joins.partitions absorbed).trans
    ((if_neg joins.different.symm).trans (if_pos rfl))
  split_ifs with member
  · exact partition_of_member afterFormed joined member
  · have apart : slot ∉ target.members ∧ slot ∉ taken.members := by
      rw [both, List.mem_append, not_or] at member
      exact member
    apply partition_of_congr wellFormed afterFormed
    intro place
    by_cases isSurvivor : place = survivor
    · rw [isSurvivor]
      exact Or.inr ⟨absent_of_found joined member, absent_of_found joins.target_found apart.1⟩
    · by_cases isAbsorbed : place = absorbed
      · rw [isAbsorbed]
        exact Or.inr ⟨absent_of_found cleared List.not_mem_nil,
          absent_of_found joins.taken_found apart.2⟩
      · exact Or.inl (by rw [joins.partitions, if_neg isSurvivor, if_neg isAbsorbed])

theorem partition_of_detaches {left : Arena R} {slot place : Nat} {owned : Partition R}
    (detaches : Detaches arena left slot place owned) (other : Nat) :
    left.partitionOf? other =
      if other = slot then none
      else if other ∈ owned.members then some { owned with members := others owned slot }
      else arena.partitionOf? other := by
  have leftFormed := detaches_well_formed wellFormed detaches
  have here := (detaches.partitions place).trans (if_pos rfl)
  split_ifs with same member
  · rw [partitionOf?, detaches.owners, if_pos same]
    rfl
  · have remains : other ∈ others owned slot := by
      rw [others, List.mem_filter, decide_eq_true_eq]
      exact ⟨member, same⟩
    have someone : ¬(others owned slot).isEmpty = true := by
      rw [List.isEmpty_iff]
      exact List.ne_nil_of_mem remains
    rw [without, if_neg someone] at here
    exact partition_of_member leftFormed here remains
  · apply partition_of_congr wellFormed leftFormed
    intro there
    by_cases isPlace : there = place
    · rw [isPlace]
      exact Or.inr ⟨absent_of_found here fun remains => member (mem_members_without.1 remains).1,
        absent_of_found detaches.found member⟩
    · exact Or.inl (by rw [detaches.partitions, if_neg isPlace])

end WellFormed

/-! ### Renamed arenas -/

omit [Scalar R] in
/-- Slot by slot, the arenas have the same partitions up to renaming. -/
def Renames (sigma : Equiv.Perm Nat) (left right : Arena R) : Prop :=
  ∀ slot, right.partitionOf? (sigma slot) = (left.partitionOf? slot).map (·.rename sigma)

section Renames

variable {sigma : Equiv.Perm Nat} (rearranges : BasisState.Rearranges sigma) {left right : Arena R}
  (renames : Renames sigma left right)

include renames

omit [Scalar R] in
theorem Renames.partition_eq {slot place other : Nat} {partition renamed : Partition R}
    (owner : left.owner? slot = some place) (found : left.partitions[place]? = some partition)
    (ownerRenamed : right.owner? (sigma slot) = some other)
    (foundRenamed : right.partitions[other]? = some renamed) :
    renamed = partition.rename sigma := by
  have same := renames slot
  rw [partition_of_owner owner found, partition_of_owner ownerRenamed foundRenamed,
    Option.map_some, Option.some.injEq] at same
  exact same

include rearranges

omit [Scalar R] in
theorem Renames.symm : Renames sigma.symm right left := by
  intro slot
  have same := renames (sigma.symm slot)
  rw [Equiv.apply_symm_apply] at same
  rw [same, Option.map_map]
  simp [Function.comp_def, Partition.rename_symm_rename rearranges]

omit [Scalar R] in
theorem Renames.known (slot : Nat) : right.known? (sigma slot) = left.known? slot := by
  have forth {tau : Equiv.Perm Nat} (others : BasisState.Rearranges tau) {one other : Arena R}
      (renamed : Renames tau one other) {slot : Nat} {value : Bool}
      (known : one.known? slot = some value) : other.known? (tau slot) = some value := by
    rw [known_iff_partition_of] at known ⊢
    obtain ⟨partition, index, amplitude, standing, entries, bit⟩ := known
    refine ⟨partition.rename tau, index.permute tau, amplitude, ?_,
      SparseState.entries_permute others entries, ?_⟩
    · rw [renamed slot, standing, Option.map_some]
    · rw [BasisState.is_one_permute_apply others, bit]
  apply Option.ext
  intro value
  constructor
  · intro known
    have back := forth (BasisState.rearranges_symm rearranges) (renames.symm rearranges) known
    rwa [Equiv.symm_apply_apply] at back
  · exact forth rearranges renames

end Renames

section Formed

variable {sigma : Equiv.Perm Nat} {left right : Arena R} (leftFormed : left.WellFormed)
  (rightFormed : right.WellFormed)

include leftFormed rightFormed

theorem Renames.owns_iff (renames : Renames sigma left right) (slot : Nat) :
    right.Owns (sigma slot) ↔ left.Owns slot := by
  rw [owns_iff_partition_of leftFormed, owns_iff_partition_of rightFormed, renames slot]
  cases left.partitionOf? slot <;> simp

theorem Renames.congr (rearranges : BasisState.Rearranges sigma)
    (renames : Renames sigma left right) (isLocal : left.Local) {tau : Equiv.Perm Nat}
    (others : BasisState.Rearranges tau)
    (same : ∀ slot, left.Owns slot → tau slot = sigma slot) : Renames tau left right := by
  intro slot
  by_cases owned : left.Owns slot
  · rw [same slot owned, renames slot]
    obtain ⟨partition, standing⟩ := (owns_iff_partition_of leftFormed).1 owned
    obtain ⟨place, found, _⟩ := (partition_of_eq_some_iff leftFormed).1 standing
    rw [standing, Option.map_some, Option.map_some,
      Partition.rename_of_local rearranges others (isLocal place partition found)]
    intro member listed
    exact (same member ⟨place, leftFormed.owner_of_member found listed⟩).symm
  · -- What `tau` makes of a slot that is not in use is not in use either.
    have unowned : ¬right.Owns (tau slot) := by
      intro owns
      obtain ⟨source, moved⟩ := sigma.surjective (tau slot)
      rw [← moved, renames.owns_iff leftFormed rightFormed] at owns
      rw [← same source owns, tau.injective.eq_iff] at moved
      rw [moved] at owns
      exact owned owns
    have nowhere {arena : Arena R} (wellFormed : arena.WellFormed) {slot : Nat}
        (unowned : ¬arena.Owns slot) : arena.partitionOf? slot = none := by
      rw [Option.eq_none_iff_forall_ne_some]
      exact fun partition standing =>
        unowned ((owns_iff_partition_of wellFormed).2 ⟨partition, standing⟩)
    rw [nowhere leftFormed owned, nowhere rightFormed unowned]
    rfl

theorem Renames.with_state (renames : Renames sigma left right) {place other : Nat}
    {partition : Partition R} (found : left.partitions[place]? = some partition)
    (used : place ∉ left.vacant) (foundRenamed : right.partitions[other]? =
      some (partition.rename sigma)) (usedRenamed : other ∉ right.vacant) (state : SparseState R) :
    Renames sigma (left.withState place state) (right.withState other (state.permute sigma)) := by
  intro slot
  rw [partition_of_with_state leftFormed found used,
    partition_of_with_state rightFormed foundRenamed usedRenamed]
  simp only [Partition.mem_rename_iff]
  split_ifs
  · rfl
  · exact renames slot

theorem Renames.inserts (rearranges : BasisState.Rearranges sigma)
    (renames : Renames sigma left right) {grown grownRenamed : Arena R}
    (grownFormed : grown.WellFormed) (renamedFormed : grownRenamed.WellFormed)
    {slot place other : Nat} (inserts : Inserts left grown slot place)
    (insertsRenamed : Inserts right grownRenamed (sigma slot) other) :
    Renames sigma grown grownRenamed := by
  intro candidate
  rw [partition_of_inserts leftFormed grownFormed inserts,
    partition_of_inserts rightFormed renamedFormed insertsRenamed]
  simp only [sigma.injective.eq_iff]
  split_ifs
  · rw [Option.map_some, Partition.rename_singleton rearranges]
  · exact renames candidate

theorem Renames.detaches (renames : Renames sigma left right) {least leastRenamed : Arena R}
    {slot place other : Nat} {owned : Partition R} (detaches : Detaches left least slot place owned)
    (detachesRenamed :
      Detaches right leastRenamed (sigma slot) other (owned.rename sigma)) :
    Renames sigma least leastRenamed := by
  intro candidate
  rw [partition_of_detaches leftFormed detaches, partition_of_detaches rightFormed detachesRenamed]
  simp only [sigma.injective.eq_iff, Partition.mem_rename_iff, Partition.others_rename]
  split_ifs
  · rfl
  · rfl
  · exact renames candidate

theorem Renames.joins (rearranges : BasisState.Rearranges sigma)
    (renames : Renames sigma left right) (isLocal : left.Local) {after afterRenamed : Arena R}
    {survivor absorbed other taking : Nat} {target taken : Partition R}
    (joins : Joins left after survivor absorbed target taken)
    (joinsRenamed :
      Joins right afterRenamed other taking (target.rename sigma) (taken.rename sigma)) :
    Renames sigma after afterRenamed := by
  have apart := leftFormed.members_disjoint joins.target_found joins.taken_found joins.different
  have together := Partition.both_rename rearranges (isLocal survivor target joins.target_found)
    (isLocal absorbed taken joins.taken_found) apart
  intro slot
  rw [partition_of_joins leftFormed joins, partition_of_joins rightFormed joinsRenamed, together]
  simp only [Partition.mem_rename_iff]
  split_ifs
  · rfl
  · exact renames slot

end Formed

/-! ### Merging in step -/

/-- Absorbing a slot does nothing, or joins its partition. -/
theorem absorb_all_cons {arena : Arena R} (wellFormed : arena.WellFormed)
    {survivor slot place : Nat} {target taken : Partition R}
    (found : arena.partitions[survivor]? = some target)
    (used : survivor ∉ arena.vacant) (owner : arena.owner? slot = some place)
    (takenFound : arena.partitions[place]? = some taken) (rest : List Nat) :
    (slot ∈ target.members ∧
      absorbAll survivor arena (slot :: rest) = absorbAll survivor arena rest) ∨
    (slot ∉ target.members ∧ ∃ after, Joins arena after survivor place target taken ∧
      absorbAll survivor arena (slot :: rest) = absorbAll survivor after rest) := by
  have read : arena.ownerOf slot = .ok place := by rw [ownerOf, owner]
  have step : absorbAll survivor arena (slot :: rest) =
      if place = survivor then absorbAll survivor arena rest
      else arena.absorb survivor place >>= fun after => absorbAll survivor after rest := by
    rw [absorbAll, read]
    rfl
  by_cases same : place = survivor
  · left
    rw [step, if_pos same]
    rw [same] at owner
    exact ⟨wellFormed.member_of_owner owner found, rfl⟩
  · right
    obtain ⟨after, absorbed, joins⟩ := absorb_joins (Ne.symm same) found takenFound used
      (wellFormed.used_of_owner owner)
    refine ⟨fun member => ?_, after, joins, ?_⟩
    · have here := wellFormed.owner_of_member found member
      rw [owner, Option.some.injEq] at here
      exact same here
    · rw [step, if_neg same, absorbed]
      rfl

theorem joins_survivor_owner {arena after : Arena R} {survivor absorbed slot : Nat}
    {target taken : Partition R} (joins : Joins arena after survivor absorbed target taken)
    (owner : arena.owner? slot = some survivor) : after.owner? slot = some survivor := by
  rw [joins.owners]
  split_ifs
  · rfl
  · exact owner

/-- The induction is on the slots still to be absorbed. Both sides join a partition, or neither
does, and the partition of `first` stays the one that survives. -/
theorem Renames.absorb_all {sigma : Equiv.Perm Nat} (rearranges : BasisState.Rearranges sigma)
    {left right : Arena R} (leftFormed : left.WellFormed) (rightFormed : right.WellFormed)
    (isLocal : left.Local) (renames : Renames sigma left right) {first survivor other : Nat}
    (owner : left.owner? first = some survivor)
    (ownerRenamed : right.owner? (sigma first) = some other) {slots : List Nat}
    (owned : ∀ slot ∈ slots, left.Owns slot) {merged mergedRenamed : Arena R}
    (result : absorbAll survivor left slots = .ok merged)
    (resultRenamed : absorbAll other right (slots.map sigma) = .ok mergedRenamed) :
    Renames sigma merged mergedRenamed := by
  induction slots generalizing left right with
  | nil =>
      rw [absorbAll, Except.ok.injEq] at result
      rw [List.map_nil, absorbAll, Except.ok.injEq] at resultRenamed
      rw [← result, ← resultRenamed]
      exact renames
  | cons slot rest induction =>
      obtain ⟨target, found, _, used⟩ := leftFormed.partition_of_owner owner
      obtain ⟨targetRenamed, foundRenamed, _, usedRenamed⟩ :=
        rightFormed.partition_of_owner ownerRenamed
      have targets := renames.partition_eq owner found ownerRenamed foundRenamed
      have slotOwned := owned slot List.mem_cons_self
      obtain ⟨place, slotOwner⟩ := slotOwned
      obtain ⟨taken, takenFound, _⟩ := leftFormed.partition_of_owner slotOwner
      obtain ⟨placeRenamed, slotOwnerRenamed⟩ :=
        (renames.owns_iff leftFormed rightFormed slot).2 ⟨place, slotOwner⟩
      obtain ⟨takenRenamed, takenFoundRenamed, _⟩ :=
        rightFormed.partition_of_owner slotOwnerRenamed
      have takens := renames.partition_eq slotOwner takenFound slotOwnerRenamed takenFoundRenamed
      have later : ∀ candidate ∈ rest, left.Owns candidate :=
        fun candidate member => owned candidate (List.mem_cons_of_mem slot member)
      have steps := absorb_all_cons leftFormed found used slotOwner takenFound rest
      have stepsRenamed := absorb_all_cons rightFormed foundRenamed usedRenamed slotOwnerRenamed
        takenFoundRenamed (rest.map sigma)
      rw [targets, Partition.mem_rename_iff, takens] at stepsRenamed
      rw [List.map_cons] at resultRenamed
      rcases steps with ⟨member, same⟩ | ⟨absent, after, joins, same⟩
      · have sameRenamed := (stepsRenamed.resolve_right fun step => step.1 member).2
        rw [same] at result
        rw [sameRenamed] at resultRenamed
        exact induction leftFormed rightFormed isLocal renames owner ownerRenamed later result
          resultRenamed
      · obtain ⟨_, afterRenamed, joinsRenamed, sameRenamed⟩ :=
          stepsRenamed.resolve_left fun step => absent step.1
        rw [same] at result
        rw [sameRenamed] at resultRenamed
        exact induction (joins_well_formed leftFormed joins)
          (joins_well_formed rightFormed joinsRenamed) (joins_local isLocal joins)
          (renames.joins leftFormed rightFormed rearranges isLocal joins joinsRenamed)
          (joins_survivor_owner joins owner) (joins_survivor_owner joinsRenamed ownerRenamed)
          (fun candidate member => (joins_owns_iff leftFormed joins candidate).2
            (later candidate member)) result resultRenamed

theorem owner_of_merge {arena merged : Arena R} {first place : Nat} {others : List Nat}
    (result : arena.merge first others = .ok (place, merged)) :
    arena.owner? first = some place ∧ absorbAll place arena others = .ok merged := by
  rw [merge] at result
  cases read : arena.ownerOf first with
  | error fault =>
      rw [read] at result
      cases result
  | ok survivor =>
      rw [read] at result
      change (absorbAll survivor arena others >>= fun merged => .ok (survivor, merged)) = _
        at result
      cases absorbed : absorbAll survivor arena others with
      | error fault =>
          rw [absorbed] at result
          cases result
      | ok after =>
          rw [absorbed] at result
          cases result
          exact ⟨owner_of_eq_ok read, absorbed⟩

theorem Renames.gathers {sigma : Equiv.Perm Nat} (rearranges : BasisState.Rearranges sigma)
    {left right : Arena R} (leftFormed : left.WellFormed) (rightFormed : right.WellFormed)
    (isLocal : left.Local) (renames : Renames sigma left right) {first place other : Nat}
    {others : List Nat} {merged mergedRenamed : Arena R} {partition renamed : Partition R}
    (gathers : Gathers left merged first others place partition)
    (gathersRenamed :
      Gathers right mergedRenamed (sigma first) (others.map sigma) other renamed) :
    Renames sigma merged mergedRenamed ∧ renamed = partition.rename sigma := by
  obtain ⟨owner, result⟩ := owner_of_merge gathers.result
  obtain ⟨ownerRenamed, resultRenamed⟩ := owner_of_merge gathersRenamed.result
  have owned : ∀ slot ∈ others, left.Owns slot := fun slot member =>
    (merges_owns_iff gathers.merges slot).1
      ⟨place, gathers.owner_eq (List.mem_cons_of_mem first member)⟩
  have after := renames.absorb_all rearranges leftFormed rightFormed isLocal owner ownerRenamed
    owned result resultRenamed
  exact ⟨after, after.partition_eq (gathers.owner_eq List.mem_cons_self) gathers.found
    (gathersRenamed.owner_eq List.mem_cons_self) gathersRenamed.found⟩

end Arena

end SparseQuantum
