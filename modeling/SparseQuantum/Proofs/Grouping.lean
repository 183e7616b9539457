import Mathlib
import SparseQuantum.Partition

/-!
# How slots are grouped into partitions

In a well-formed arena the partitions in use have members, no slot is a member twice or of two
partitions, and the owner of a slot is the place of the partition that it is a member of. Each
operation on arenas is described by the partition that stands at each place and the owner of each
slot afterwards, and keeps the arena well-formed. Joining several partitions is a chain of joins of
two (`Merges`), so that what one join preserves, every merge preserves.
-/

namespace SparseQuantum

set_option autoImplicit false

theorem get_insert {Key Value : Type} [Ord Key] [Std.TransOrd Key] [Std.LawfulEqOrd Key]
    (map : Std.ExtTreeMap Key Value compare) (key : Key) (value : Value) (other : Key)
    [Decidable (other = key)] :
    (map.insert key value)[other]? = if other = key then some value else map[other]? := by
  rw [Std.ExtTreeMap.getElem?_insert]
  by_cases same : key = other
  · rw [if_pos (by rw [same]; exact Std.ReflOrd.compare_self), if_pos same.symm]
  · rw [if_neg fun equal => same (Std.LawfulEqOrd.eq_of_compare equal), if_neg (Ne.symm same)]

theorem get_erase {Key Value : Type} [Ord Key] [Std.TransOrd Key] [Std.LawfulEqOrd Key]
    (map : Std.ExtTreeMap Key Value compare) (key other : Key) [Decidable (other = key)] :
    (map.erase key)[other]? = if other = key then none else map[other]? := by
  rw [Std.ExtTreeMap.getElem?_erase]
  by_cases same : key = other
  · rw [if_pos (by rw [same]; exact Std.ReflOrd.compare_self), if_pos same.symm]
  · rw [if_neg fun equal => same (Std.LawfulEqOrd.eq_of_compare equal), if_neg (Ne.symm same)]

namespace Arena

variable {R : Type}

/-! ### Replaced states -/

def withState (arena : Arena R) (place : Nat) (state : SparseState R) : Arena R :=
  { arena with
    partitions := arena.partitions.modify place fun partition => { partition with state } }

theorem partition_with_state (arena : Arena R) (place other : Nat) (state : SparseState R) :
    (arena.withState place state).partitions[other]? =
      if place = other then (arena.partitions[other]?).map fun partition =>
        { partition with state }
      else arena.partitions[other]? := by
  rw [withState, Array.getElem?_modify]

theorem with_state_stands {arena : Arena R} {place : Nat} {partition : Partition R}
    (stands : arena.partitions[place]? = some partition) (state : SparseState R) :
    (arena.withState place state).partitions[place]? = some { partition with state } := by
  rw [partition_with_state, if_pos rfl, stands]
  rfl

theorem set_state_eq {arena : Arena R} {place : Nat} {partition : Partition R}
    (found : arena.partitions[place]? = some partition) (state : SparseState R) :
    arena.setState place state = .ok (arena.withState place state) := by
  have inside : place < arena.partitions.size := (Array.getElem?_eq_some_iff.1 found).1
  have here : arena.partition place = .ok partition := by rw [Arena.partition, found]
  rw [setState, here]
  change arena.setPartition place { partition with state } = _
  rw [setPartition, if_pos inside, withState]
  congr 2
  apply Array.ext_getElem?
  intro other
  rw [Array.getElem?_setIfInBounds, Array.getElem?_modify]
  split_ifs with same
  · rw [← same, found]
    rfl
  · rfl

theorem with_state_self {arena : Arena R} {place : Nat} {partition : Partition R}
    (found : arena.partitions[place]? = some partition) :
    arena.withState place partition.state = arena := by
  have same : (arena.withState place partition.state).partitions = arena.partitions := by
    apply Array.ext_getElem?
    intro other
    rw [partition_with_state]
    split_ifs with here
    · rw [← here, found]
      rfl
    · rfl
  cases arena
  simp only [withState] at same ⊢
  rw [same]

theorem with_state_with_state (arena : Arena R) (place : Nat) (first second : SparseState R) :
    (arena.withState place first).withState place second = arena.withState place second := by
  rw [withState, withState, withState, Arena.mk.injEq]
  refine ⟨Array.ext_getElem? fun other => ?_, rfl, rfl⟩
  rw [Array.getElem?_modify, Array.getElem?_modify, Array.getElem?_modify]
  split_ifs
  · rw [Option.map_map]
    rfl
  · rfl

/-! ### Well-formed arenas -/

variable [Scalar R]

structure WellFormed (arena : Arena R) : Prop where
  vacant_distinct : arena.vacant.Nodup
  vacant_cleared : ∀ place ∈ arena.vacant, arena.partitions[place]? = some .vacant
  members_distinct : ∀ (place : Nat) (partition : Partition R),
    arena.partitions[place]? = some partition → partition.members.Nodup
  members_exist : ∀ (place : Nat) (partition : Partition R),
    arena.partitions[place]? = some partition → place ∉ arena.vacant → partition.members ≠ []
  owner_iff : ∀ slot place, arena.owner? slot = some place ↔
    ∃ partition, arena.partitions[place]? = some partition ∧ slot ∈ partition.members

def Owns (arena : Arena R) (slot : Nat) : Prop := ∃ place, arena.owner? slot = some place

theorem empty_well_formed : (empty : Arena R).WellFormed where
  vacant_distinct := List.nodup_nil
  vacant_cleared := fun place member => absurd member List.not_mem_nil
  members_distinct := fun place partition found => by simp [empty] at found
  members_exist := fun place partition found => by simp [empty] at found
  owner_iff := by
    intro slot place
    have nobody : (empty : Arena R).owner? slot = none := by
      change (∅ : Std.ExtTreeMap Nat Nat compare)[slot]? = none
      exact Std.ExtTreeMap.getElem?_empty
    rw [nobody]
    simp [empty]

theorem empty_owns_nothing (slot : Nat) : ¬(empty : Arena R).Owns slot := by
  rintro ⟨place, owner⟩
  obtain ⟨partition, found, _⟩ := (empty_well_formed.owner_iff slot place).1 owner
  simp [empty] at found

namespace WellFormed

variable {arena : Arena R} (wellFormed : arena.WellFormed)

include wellFormed

theorem partition_of_owner {slot place : Nat} (owner : arena.owner? slot = some place) :
    ∃ partition, arena.partitions[place]? = some partition ∧ slot ∈ partition.members ∧
      place ∉ arena.vacant := by
  obtain ⟨partition, found, member⟩ := (wellFormed.owner_iff slot place).1 owner
  refine ⟨partition, found, member, ?_⟩
  intro vacant
  have cleared := wellFormed.vacant_cleared place vacant
  rw [found, Option.some.injEq] at cleared
  rw [cleared] at member
  exact absurd member List.not_mem_nil

theorem owner_of_member {slot place : Nat} {partition : Partition R}
    (found : arena.partitions[place]? = some partition) (member : slot ∈ partition.members) :
    arena.owner? slot = some place :=
  (wellFormed.owner_iff slot place).2 ⟨partition, found, member⟩

theorem member_of_owner {slot place : Nat} {partition : Partition R}
    (owner : arena.owner? slot = some place)
    (found : arena.partitions[place]? = some partition) : slot ∈ partition.members := by
  obtain ⟨owning, there, member, _⟩ := wellFormed.partition_of_owner owner
  rw [found, Option.some.injEq] at there
  rw [there]
  exact member

theorem used_of_owner {slot place : Nat} (owner : arena.owner? slot = some place) :
    place ∉ arena.vacant := by
  obtain ⟨_, _, _, used⟩ := wellFormed.partition_of_owner owner
  exact used

/-- Partitions at different places have no slot in common. -/
theorem members_disjoint {first second : Nat} {left right : Partition R}
    (firstFound : arena.partitions[first]? = some left)
    (secondFound : arena.partitions[second]? = some right) (different : first ≠ second) :
    List.Disjoint left.members right.members := by
  intro slot leftMember rightMember
  have leftOwner := wellFormed.owner_of_member firstFound leftMember
  have rightOwner := wellFormed.owner_of_member secondFound rightMember
  rw [leftOwner, Option.some.injEq] at rightOwner
  exact different rightOwner

theorem lt_size_of_vacant {place : Nat} (vacant : place ∈ arena.vacant) :
    place < arena.partitions.size := by
  have cleared := wellFormed.vacant_cleared place vacant
  exact (Array.getElem?_eq_some_iff.1 cleared).1

end WellFormed

theorem with_state_well_formed {arena : Arena R} (wellFormed : arena.WellFormed) {place : Nat}
    (used : place ∉ arena.vacant) (state : SparseState R) :
    (arena.withState place state).WellFormed := by
  have origin : ∀ (other : Nat) (partition : Partition R),
      (arena.withState place state).partitions[other]? = some partition →
      ∃ before : Partition R,
        arena.partitions[other]? = some before ∧ partition.members = before.members := by
    intro other partition found
    rw [partition_with_state] at found
    split_ifs at found with same
    · rcases Option.map_eq_some_iff.1 found with ⟨before, source, changed⟩
      exact ⟨before, source, by rw [← changed]⟩
    · exact ⟨partition, found, rfl⟩
  refine ⟨wellFormed.vacant_distinct, ?_, ?_, ?_, ?_⟩
  · intro other vacant
    rw [partition_with_state, if_neg (fun same => used (by rw [same]; exact vacant))]
    exact wellFormed.vacant_cleared other vacant
  · intro other partition found
    obtain ⟨before, source, same⟩ := origin other partition found
    rw [same]
    exact wellFormed.members_distinct other before source
  · intro other partition found notVacant
    obtain ⟨before, source, same⟩ := origin other partition found
    rw [same]
    exact wellFormed.members_exist other before source notVacant
  · intro slot other
    change arena.owner? slot = some other ↔ _
    rw [wellFormed.owner_iff, partition_with_state]
    split_ifs
    · cases arena.partitions[other]? <;> simp
    · rfl

/-! ### New partitions -/

/-- `grown` is the arena with a partition of `slot` alone at a place that was not in use. -/
structure Inserts (arena grown : Arena R) (slot place : Nat) : Prop where
  before : arena.partitions[place]? = some .vacant ∨ arena.partitions[place]? = none
  partitions : ∀ other, grown.partitions[other]? =
    if other = place then some (.singleton slot) else arena.partitions[other]?
  vacant : ∀ other, other ∈ grown.vacant ↔ other ∈ arena.vacant ∧ other ≠ place
  owners : ∀ other, grown.owner? other = if other = slot then some place else arena.owner? other

theorem inserts_owns_iff {arena grown : Arena R} {slot place : Nat}
    (inserts : Inserts arena grown slot place) (other : Nat) :
    grown.Owns other ↔ other = slot ∨ arena.Owns other := by
  rw [Owns, Owns, inserts.owners]
  split_ifs with same
  · exact ⟨fun _ => Or.inl same, fun _ => ⟨place, rfl⟩⟩
  · exact ⟨Or.inr, fun owned => owned.resolve_left same⟩

theorem inserts_owner_iff {arena grown : Arena R} {slot place : Nat}
    (wellFormed : arena.WellFormed) (unowned : ¬arena.Owns slot)
    (inserts : Inserts arena grown slot place) (candidate other : Nat) :
    grown.owner? candidate = some other ↔
      ∃ partition, grown.partitions[other]? = some partition ∧ candidate ∈ partition.members := by
  rw [inserts.owners, inserts.partitions]
  by_cases same : candidate = slot <;> by_cases here : other = place
  · simp [same, here, Partition.singleton]
  · simp only [if_pos same, if_neg here, Option.some.injEq]
    constructor
    · intro equal
      exact absurd equal.symm here
    · rintro ⟨partition, found, member⟩
      rw [same] at member
      exact absurd ⟨other, wellFormed.owner_of_member found member⟩ unowned
  · simp only [if_neg same, if_pos here, Option.some.injEq]
    constructor
    · intro owner
      obtain ⟨partition, found, member⟩ := (wellFormed.owner_iff candidate other).1 owner
      rw [here] at found
      rcases inserts.before with cleared | nothing
      · rw [found, Option.some.injEq] at cleared
        rw [cleared] at member
        exact absurd member List.not_mem_nil
      · rw [found] at nothing
        exact absurd nothing (by simp)
    · rintro ⟨partition, found, member⟩
      rw [← found] at member
      exact absurd (List.mem_singleton.1 member) same
  · rw [if_neg same, if_neg here]
    exact wellFormed.owner_iff candidate other

theorem inserts_well_formed {arena grown : Arena R} {slot place : Nat}
    (wellFormed : arena.WellFormed) (unowned : ¬arena.Owns slot)
    (inserts : Inserts arena grown slot place) (distinct : grown.vacant.Nodup) :
    grown.WellFormed := by
  refine ⟨distinct, ?_, ?_, ?_, inserts_owner_iff wellFormed unowned inserts⟩
  · intro other member
    rw [inserts.vacant] at member
    rw [inserts.partitions, if_neg member.2]
    exact wellFormed.vacant_cleared other member.1
  · intro other partition found
    rw [inserts.partitions] at found
    split_ifs at found with here
    · rw [← Option.some.inj found]
      exact List.nodup_singleton slot
    · exact wellFormed.members_distinct other partition found
  · intro other partition found notVacant
    rw [inserts.partitions] at found
    rw [inserts.vacant] at notVacant
    split_ifs at found with here
    · rw [← Option.some.inj found]
      exact List.cons_ne_nil slot []
    · exact wellFormed.members_exist other partition found fun member => notVacant ⟨member, here⟩

/-- A slot that nobody owns gets a place of its own, one that was vacant or a new one. -/
theorem insert_singleton_spec {arena : Arena R} (wellFormed : arena.WellFormed) {slot : Nat}
    (unowned : ¬arena.Owns slot) :
    ∃ place grown, arena.insertSingleton slot = .ok grown ∧ grown.WellFormed ∧
      Inserts arena grown slot place := by
  cases vacancies : arena.vacant with
  | nil =>
      let grown : Arena R :=
        { partitions := arena.partitions.push (.singleton slot)
          vacant := []
          owners := arena.owners.insert slot arena.partitions.size }
      have inserts : Inserts arena grown slot arena.partitions.size := by
        refine ⟨Or.inr (by simp), ?_, ?_,
          fun other => get_insert arena.owners slot arena.partitions.size other⟩
        · intro other
          rw [Array.getElem?_push]
        · intro other
          rw [vacancies]
          simp [grown]
      refine ⟨arena.partitions.size, grown, ?_, ?_, inserts⟩
      · rw [insertSingleton, vacancies]
      · exact inserts_well_formed wellFormed unowned inserts List.nodup_nil
  | cons place rest =>
      have member : place ∈ arena.vacant := by rw [vacancies]; exact List.mem_cons_self
      have inside := wellFormed.lt_size_of_vacant member
      have distinct : place ∉ rest ∧ rest.Nodup := by
        rw [← List.nodup_cons, ← vacancies]
        exact wellFormed.vacant_distinct
      let grown : Arena R :=
        { partitions := arena.partitions.setIfInBounds place (.singleton slot)
          vacant := rest
          owners := arena.owners.insert slot place }
      have inserts : Inserts arena grown slot place := by
        refine ⟨Or.inl (wellFormed.vacant_cleared place member), ?_, ?_,
          fun other => get_insert arena.owners slot place other⟩
        · intro other
          rw [Array.getElem?_setIfInBounds]
          by_cases same : place = other
          · rw [if_pos same, if_pos inside, if_pos same.symm]
          · rw [if_neg same, if_neg (Ne.symm same)]
        · intro other
          rw [vacancies, List.mem_cons]
          constructor
          · intro source
            exact ⟨Or.inr source, fun same => distinct.1 (by rw [← same]; exact source)⟩
          · rintro ⟨first | source, different⟩
            · exact absurd first different
            · exact source
      refine ⟨place, grown, ?_, ?_, inserts⟩
      · rw [insertSingleton, vacancies]
        simp only [setPartition, if_pos inside]
        rfl
      · exact inserts_well_formed wellFormed unowned inserts distinct.2

/-! ### Joined partitions -/

def both (target taken : Partition R) : Partition R :=
  ⟨target.state.tensor taken.state, target.members ++ taken.members⟩

/-- `after` is the arena with the partition at `absorbed` joined to the one at `survivor`. -/
structure Joins (arena after : Arena R) (survivor absorbed : Nat) (target taken : Partition R) :
    Prop where
  different : survivor ≠ absorbed
  target_found : arena.partitions[survivor]? = some target
  taken_found : arena.partitions[absorbed]? = some taken
  target_used : survivor ∉ arena.vacant
  taken_used : absorbed ∉ arena.vacant
  partitions : ∀ other, after.partitions[other]? =
    if other = survivor then some (both target taken)
    else if other = absorbed then some .vacant
    else arena.partitions[other]?
  vacant : after.vacant = absorbed :: arena.vacant
  owners : ∀ slot, after.owner? slot =
    if slot ∈ taken.members then some survivor else arena.owner? slot

theorem owner_foldl_insert (owners : Std.ExtTreeMap Nat Nat compare) (slots : List Nat)
    (place slot : Nat) :
    (slots.foldl (fun owners member => owners.insert member place) owners)[slot]? =
      if slot ∈ slots then some place else owners[slot]? := by
  induction slots generalizing owners with
  | nil => simp
  | cons first rest induction =>
      rw [List.foldl_cons, induction, get_insert]
      by_cases later : slot ∈ rest <;> by_cases here : slot = first <;> simp [later, here]

theorem absorb_joins {arena : Arena R} {survivor absorbed : Nat} {target taken : Partition R}
    (different : survivor ≠ absorbed) (targetFound : arena.partitions[survivor]? = some target)
    (takenFound : arena.partitions[absorbed]? = some taken)
    (targetUsed : survivor ∉ arena.vacant) (takenUsed : absorbed ∉ arena.vacant) :
    ∃ after, arena.absorb survivor absorbed = .ok after ∧
      Joins arena after survivor absorbed target taken := by
  have survivorInside : survivor < arena.partitions.size :=
    (Array.getElem?_eq_some_iff.1 targetFound).1
  have absorbedInside : absorbed < arena.partitions.size :=
    (Array.getElem?_eq_some_iff.1 takenFound).1
  let cleared : Arena R :=
    { arena with partitions := arena.partitions.setIfInBounds absorbed .vacant }
  let placed : Arena R :=
    { cleared with partitions := cleared.partitions.setIfInBounds survivor (both target taken) }
  let after : Arena R :=
    { placed with
      vacant := absorbed :: arena.vacant
      owners := taken.members.foldl (fun owners slot => owners.insert slot survivor) arena.owners }
  have readTaken : arena.partition absorbed = .ok taken := by rw [partition, takenFound]
  have clear : arena.setPartition absorbed .vacant = .ok cleared := by
    rw [setPartition, if_pos absorbedInside]
  have stillThere : cleared.partitions[survivor]? = some target := by
    rw [Array.getElem?_setIfInBounds, if_neg (Ne.symm different), targetFound]
  have readTarget : cleared.partition survivor = .ok target := by rw [partition, stillThere]
  have place : cleared.setPartition survivor (both target taken) = .ok placed := by
    rw [setPartition, if_pos (by simpa [cleared] using survivorInside)]
  have result : arena.absorb survivor absorbed = .ok after := by
    rw [absorb, readTaken]
    change (arena.setPartition absorbed .vacant >>= _) = _
    rw [clear]
    change (cleared.partition survivor >>= _) = _
    rw [readTarget]
    change (cleared.setPartition survivor (both target taken) >>= _) = _
    rw [place]
    rfl
  refine ⟨after, result, different, targetFound, takenFound, targetUsed, takenUsed, ?_, rfl,
    fun slot => owner_foldl_insert arena.owners taken.members survivor slot⟩
  intro other
  change (cleared.partitions.setIfInBounds survivor (both target taken))[other]? = _
  rw [Array.getElem?_setIfInBounds, Array.getElem?_setIfInBounds, Array.size_setIfInBounds,
    if_pos survivorInside, if_pos absorbedInside]
  simp only [eq_comm]

theorem joins_owner_iff {arena after : Arena R} {survivor absorbed : Nat}
    {target taken : Partition R} (wellFormed : arena.WellFormed)
    (joins : Joins arena after survivor absorbed target taken) (slot place : Nat) :
    after.owner? slot = some place ↔
      ∃ partition, after.partitions[place]? = some partition ∧ slot ∈ partition.members := by
  rw [joins.owners, joins.partitions]
  by_cases moved : slot ∈ taken.members
  · rw [if_pos moved, Option.some.injEq]
    constructor
    · intro same
      exact ⟨both target taken, by rw [if_pos same.symm],
        List.mem_append_right _ moved⟩
    · rintro ⟨partition, found, member⟩
      by_contra elsewhere
      rw [if_neg (Ne.symm elsewhere)] at found
      split_ifs at found with there
      · rw [← Option.some.inj found] at member
        exact absurd member List.not_mem_nil
      · exact wellFormed.members_disjoint joins.taken_found found (Ne.symm there) moved member
  · rw [if_neg moved, wellFormed.owner_iff]
    by_cases here : place = survivor
    · rw [if_pos here, here, joins.target_found]
      simp [both, moved]
    · rw [if_neg here]
      by_cases there : place = absorbed
      · rw [if_pos there, there, joins.taken_found]
        simp [moved, Partition.vacant]
      · rw [if_neg there]

theorem joins_well_formed {arena after : Arena R} {survivor absorbed : Nat}
    {target taken : Partition R} (wellFormed : arena.WellFormed)
    (joins : Joins arena after survivor absorbed target taken) : after.WellFormed := by
  have apart := wellFormed.members_disjoint joins.target_found joins.taken_found joins.different
  refine ⟨?_, ?_, ?_, ?_, joins_owner_iff wellFormed joins⟩
  · rw [joins.vacant, List.nodup_cons]
    exact ⟨joins.taken_used, wellFormed.vacant_distinct⟩
  · intro place member
    rw [joins.vacant, List.mem_cons] at member
    rw [joins.partitions]
    rcases member with here | before
    · rw [here, if_neg (Ne.symm joins.different), if_pos rfl]
    · have notSurvivor : place ≠ survivor := by
        intro same
        exact joins.target_used (by rw [← same]; exact before)
      rw [if_neg notSurvivor]
      split_ifs
      · rfl
      · exact wellFormed.vacant_cleared place before
  · intro place partition found
    rw [joins.partitions] at found
    split_ifs at found with here there
    · rw [← Option.some.inj found]
      exact (wellFormed.members_distinct survivor target joins.target_found).append
        (wellFormed.members_distinct absorbed taken joins.taken_found) apart
    · rw [← Option.some.inj found]
      exact List.nodup_nil
    · exact wellFormed.members_distinct place partition found
  · intro place partition found notVacant
    rw [joins.vacant, List.mem_cons, not_or] at notVacant
    rw [joins.partitions, if_neg notVacant.1] at found
    split_ifs at found with here
    · rw [← Option.some.inj found, both]
      intro nothing
      exact wellFormed.members_exist survivor target joins.target_found joins.target_used
        (List.append_eq_nil_iff.1 nothing).1
    · exact wellFormed.members_exist place partition found notVacant.2

theorem joins_owns_iff {arena after : Arena R} {survivor absorbed : Nat}
    {target taken : Partition R} (wellFormed : arena.WellFormed)
    (joins : Joins arena after survivor absorbed target taken) (slot : Nat) :
    after.Owns slot ↔ arena.Owns slot := by
  rw [Owns, Owns, joins.owners]
  split_ifs with moved
  · exact ⟨fun _ => ⟨absorbed, wellFormed.owner_of_member joins.taken_found moved⟩,
      fun _ => ⟨survivor, rfl⟩⟩
  · rfl

/-- A chain of joins to the partition at `survivor`. -/
inductive Merges (survivor : Nat) : Arena R → Arena R → Prop where
  | done (arena : Arena R) : Merges survivor arena arena
  | join {arena after merged : Arena R} {absorbed : Nat} {target taken : Partition R}
      (wellFormed : arena.WellFormed)
      (joins : Joins arena after survivor absorbed target taken)
      (rest : Merges survivor after merged) : Merges survivor arena merged

theorem merges_well_formed {survivor : Nat} {arena merged : Arena R}
    (merges : Merges survivor arena merged) (wellFormed : arena.WellFormed) :
    merged.WellFormed := by
  induction merges with
  | done => exact wellFormed
  | join before joins _ induction => exact induction (joins_well_formed before joins)

theorem merges_owns_iff {survivor : Nat} {arena merged : Arena R}
    (merges : Merges survivor arena merged) (slot : Nat) :
    merged.Owns slot ↔ arena.Owns slot := by
  induction merges with
  | done => rfl
  | join before joins _ induction => rw [induction, joins_owns_iff before joins]

theorem merges_survivor {survivor : Nat} {arena merged : Arena R}
    (merges : Merges survivor arena merged) {target : Partition R}
    (found : arena.partitions[survivor]? = some target) (used : survivor ∉ arena.vacant) :
    ∃ partition, merged.partitions[survivor]? = some partition ∧ survivor ∉ merged.vacant ∧
      target.members ⊆ partition.members := by
  induction merges generalizing target with
  | done => exact ⟨target, found, used, fun _ member => member⟩
  | join before joins _ induction =>
      have same := joins.target_found
      rw [found, Option.some.injEq] at same
      have joined := joins.partitions survivor
      rw [if_pos rfl] at joined
      have stillUsed := joins.target_used
      obtain ⟨partition, last, lastUsed, members⟩ :=
        induction joined (by
          rw [joins.vacant, List.mem_cons, not_or]
          exact ⟨joins.different, joins.target_used⟩)
      refine ⟨partition, last, lastUsed, fun slot member => members ?_⟩
      rw [same] at member
      exact List.mem_append_left _ member

/-- Merging ends well when all operands are owned, with all of them in the survivor. -/
theorem absorb_all_merges {arena : Arena R} (wellFormed : arena.WellFormed) {survivor : Nat}
    {target : Partition R} (found : arena.partitions[survivor]? = some target)
    (used : survivor ∉ arena.vacant) (slots : List Nat) (owned : ∀ slot ∈ slots, arena.Owns slot) :
    ∃ merged, absorbAll survivor arena slots = .ok merged ∧ Merges survivor arena merged ∧
      ∀ slot ∈ slots, merged.owner? slot = some survivor := by
  induction slots generalizing arena target with
  | nil => exact ⟨arena, rfl, .done arena, fun slot member => absurd member List.not_mem_nil⟩
  | cons slot rest induction =>
      obtain ⟨place, owner⟩ := owned slot List.mem_cons_self
      have readOwner : arena.ownerOf slot = .ok place := by rw [ownerOf, owner]
      obtain ⟨taken, takenFound, member, takenUsed⟩ := wellFormed.partition_of_owner owner
      -- Both branches end with the same continuation: the slot is already in the survivor.
      have finish (next : Arena R) (nextWellFormed : next.WellFormed)
          (current : Partition R) (currentFound : next.partitions[survivor]? = some current)
          (currentUsed : survivor ∉ next.vacant) (inside : slot ∈ current.members)
          (owned : ∀ slot ∈ rest, next.Owns slot) :
          ∃ merged, absorbAll survivor next rest = .ok merged ∧ Merges survivor next merged ∧
            ∀ other ∈ slot :: rest, merged.owner? other = some survivor := by
        obtain ⟨merged, result, merges, owners⟩ :=
          induction nextWellFormed currentFound currentUsed owned
        refine ⟨merged, result, merges, ?_⟩
        intro other source
        rcases List.mem_cons.1 source with first | later
        · rcases merges_survivor merges currentFound currentUsed with
            ⟨partition, last, _, members⟩
          rw [first]
          exact (merges_well_formed merges nextWellFormed).owner_of_member last (members inside)
        · exact owners other later
      by_cases same : place = survivor
      · rw [same] at takenFound
        obtain ⟨merged, result, merges, owners⟩ :=
          finish arena wellFormed taken takenFound used member
            (fun other source => owned other (List.mem_cons_of_mem _ source))
        refine ⟨merged, ?_, merges, owners⟩
        rw [absorbAll, readOwner]
        change (if place = survivor then _ else _) = _
        rw [if_pos same, result]
      · rcases absorb_joins (Ne.symm same) found takenFound used takenUsed with
          ⟨after, absorbed, joins⟩
        have afterWellFormed := joins_well_formed wellFormed joins
        have joined := joins.partitions survivor
        rw [if_pos rfl] at joined
        have afterUsed : survivor ∉ after.vacant := by
          rw [joins.vacant, List.mem_cons, not_or]
          exact ⟨joins.different, used⟩
        obtain ⟨merged, result, merges, owners⟩ :=
          finish after afterWellFormed (both target taken) joined afterUsed
            (List.mem_append_right _ member)
            (fun other source => (joins_owns_iff wellFormed joins other).2
              (owned other (List.mem_cons_of_mem _ source)))
        refine ⟨merged, ?_, .join wellFormed joins merges, owners⟩
        rw [absorbAll, readOwner]
        change (if place = survivor then _ else _) = _
        rw [if_neg same, absorbed]
        exact result

/-- `merged` is the arena with the partitions of the slots joined in the one at `place`. -/
structure Gathers (arena merged : Arena R) (first : Nat) (others : List Nat) (place : Nat)
    (partition : Partition R) : Prop where
  result : arena.merge first others = .ok (place, merged)
  merges : Merges place arena merged
  well_formed : merged.WellFormed
  found : merged.partitions[place]? = some partition
  used : place ∉ merged.vacant
  members : ∀ slot ∈ first :: others, slot ∈ partition.members

/-- Owned slots can be merged, into one partition of all of them that joins have reached. -/
theorem merge_gathers {arena : Arena R} (wellFormed : arena.WellFormed) (first : Nat)
    (others : List Nat) (owned : ∀ slot ∈ first :: others, arena.Owns slot) :
    ∃ place merged partition, Gathers arena merged first others place partition := by
  obtain ⟨place, owner⟩ := owned first List.mem_cons_self
  obtain ⟨target, found, member, used⟩ := wellFormed.partition_of_owner owner
  obtain ⟨merged, result, merges, owners⟩ :=
    absorb_all_merges wellFormed found used others
      (fun slot source => owned slot (List.mem_cons_of_mem _ source))
  have mergedWellFormed := merges_well_formed merges wellFormed
  obtain ⟨partition, last, lastUsed, members⟩ := merges_survivor merges found used
  refine ⟨place, merged, partition, ?_, merges, mergedWellFormed, last, lastUsed, ?_⟩
  · rw [merge, ownerOf, owner]
    change (absorbAll place arena others >>= _) = _
    rw [result]
    rfl
  · intro slot source
    rcases List.mem_cons.1 source with same | later
    · rw [same]
      exact members member
    · exact mergedWellFormed.member_of_owner (owners slot later) last

theorem absorb_all_of_owned {arena : Arena R} {survivor : Nat} {slots : List Nat}
    (owned : ∀ slot ∈ slots, arena.owner? slot = some survivor) :
    absorbAll survivor arena slots = .ok arena := by
  induction slots with
  | nil => rfl
  | cons slot rest induction =>
      have read : arena.ownerOf slot = .ok survivor := by
        rw [ownerOf, owned slot List.mem_cons_self]
      rw [absorbAll, read]
      change (if survivor = survivor then absorbAll survivor arena rest else _) = _
      rw [if_pos rfl, induction fun other member => owned other (List.mem_cons_of_mem slot member)]

theorem merge_of_owned {arena : Arena R} {first place : Nat} {others : List Nat}
    (owned : ∀ slot ∈ first :: others, arena.owner? slot = some place) :
    arena.merge first others = .ok (place, arena) := by
  rw [merge, ownerOf, owned first List.mem_cons_self]
  change (absorbAll place arena others >>= fun merged => .ok (place, merged)) = _
  rw [absorb_all_of_owned fun slot member => owned slot (List.mem_cons_of_mem first member)]
  rfl

theorem Gathers.owner_eq {arena merged : Arena R} {first place : Nat} {others : List Nat}
    {partition : Partition R} (gathers : Gathers arena merged first others place partition)
    {slot : Nat} (member : slot ∈ first :: others) : merged.owner? slot = some place :=
  gathers.well_formed.owner_of_member gathers.found (gathers.members slot member)

theorem Gathers.again {arena merged : Arena R} {first place : Nat} {others : List Nat}
    {partition : Partition R} (gathers : Gathers arena merged first others place partition) :
    Gathers merged merged first others place partition :=
  ⟨merge_of_owned fun _ member => gathers.owner_eq member, .done merged, gathers.well_formed,
    gathers.found, gathers.used, gathers.members⟩

/-! ### Detached slots -/

def others (partition : Partition R) (slot : Nat) : List Nat :=
  partition.members.filter (· ≠ slot)

def without (partition : Partition R) (slot : Nat) : Partition R :=
  if (others partition slot).isEmpty then .vacant
  else { partition with members := others partition slot }

/-- `left` is the arena whose partition `owned` at `place` has lost its member `slot`. -/
structure Detaches (arena left : Arena R) (slot place : Nat) (owned : Partition R) : Prop where
  found : arena.partitions[place]? = some owned
  member : slot ∈ owned.members
  used : place ∉ arena.vacant
  partitions : ∀ other, left.partitions[other]? =
    if other = place then some (without owned slot) else arena.partitions[other]?
  vacant : left.vacant =
    if (others owned slot).isEmpty then place :: arena.vacant else arena.vacant
  owners : ∀ other, left.owner? other = if other = slot then none else arena.owner? other

theorem detach_spec {arena : Arena R} (wellFormed : arena.WellFormed) {slot place : Nat}
    (owner : arena.owner? slot = some place) :
    ∃ left owned, arena.detach slot = .ok left ∧ Detaches arena left slot place owned := by
  obtain ⟨owned, found, member, used⟩ := wellFormed.partition_of_owner owner
  have inside : place < arena.partitions.size := (Array.getElem?_eq_some_iff.1 found).1
  let left : Arena R :=
    { partitions := arena.partitions.setIfInBounds place (without owned slot)
      vacant := if (others owned slot).isEmpty then place :: arena.vacant else arena.vacant
      owners := arena.owners.erase slot }
  have result : arena.detach slot = .ok left := by
    have read : arena.partition place = .ok owned := by rw [partition, found]
    rw [detach, owner]
    change (arena.partition place >>= _) = _
    rw [read]
    change (if (others owned slot).isEmpty then _ else _) = _
    by_cases nobody : (others owned slot).isEmpty
    · simp only [left, without, if_pos nobody, setPartition, if_pos inside]
      rfl
    · simp only [left, without, if_neg nobody, setPartition, if_pos inside]
      rfl
  refine ⟨left, owned, result, found, member, used, ?_, rfl,
    fun other => get_erase arena.owners slot other⟩
  intro other
  rw [Array.getElem?_setIfInBounds, if_pos inside]
  simp only [eq_comm]

theorem mem_members_without {partition : Partition R} {slot other : Nat} :
    other ∈ (without partition slot).members ↔ other ∈ partition.members ∧ other ≠ slot := by
  have kept : other ∈ others partition slot ↔ other ∈ partition.members ∧ other ≠ slot := by
    rw [others, List.mem_filter, decide_eq_true_eq]
  rw [without]
  split_ifs with nobody
  · rw [← kept, List.isEmpty_iff.1 nobody]
    rfl
  · exact kept

theorem detaches_owns_iff {arena left : Arena R} {slot place : Nat} {owned : Partition R}
    (detaches : Detaches arena left slot place owned) (other : Nat) :
    left.Owns other ↔ other ≠ slot ∧ arena.Owns other := by
  rw [Owns, Owns, detaches.owners]
  split_ifs with same
  · constructor
    · rintro ⟨place, absurdity⟩
      exact absurd absurdity (by simp)
    · rintro ⟨different, _⟩
      exact absurd same different
  · exact ⟨fun owned => ⟨same, owned⟩, fun owned => owned.2⟩

theorem detaches_owner_iff {arena left : Arena R} {slot place : Nat} {owned : Partition R}
    (wellFormed : arena.WellFormed) (detaches : Detaches arena left slot place owned)
    (candidate other : Nat) :
    left.owner? candidate = some other ↔
      ∃ partition, left.partitions[other]? = some partition ∧ candidate ∈ partition.members := by
  rw [detaches.owners, detaches.partitions]
  by_cases here : other = place
  · rw [if_pos here, here]
    have before := wellFormed.owner_iff candidate place
    rw [detaches.found] at before
    simp only [Option.some.injEq, exists_eq_left'] at before ⊢
    rw [mem_members_without]
    by_cases same : candidate = slot
    · simp [same]
    · rw [if_neg same, before]
      simp [same]
  · rw [if_neg here]
    by_cases same : candidate = slot
    · rw [if_pos same, same]
      constructor
      · intro absurdity
        exact absurd absurdity (by simp)
      · rintro ⟨partition, found, member⟩
        have apart := wellFormed.members_disjoint detaches.found found (Ne.symm here)
        exact absurd member (fun inside => apart detaches.member inside)
    · rw [if_neg same]
      exact wellFormed.owner_iff candidate other

theorem detaches_well_formed {arena left : Arena R} {slot place : Nat} {owned : Partition R}
    (wellFormed : arena.WellFormed) (detaches : Detaches arena left slot place owned) :
    left.WellFormed := by
  refine ⟨?_, ?_, ?_, ?_, detaches_owner_iff wellFormed detaches⟩
  · rw [detaches.vacant]
    split_ifs
    · exact List.nodup_cons.2 ⟨detaches.used, wellFormed.vacant_distinct⟩
    · exact wellFormed.vacant_distinct
  · intro other member
    rw [detaches.vacant] at member
    rw [detaches.partitions]
    by_cases here : other = place
    · rw [if_pos here, without]
      by_cases nobody : (others owned slot).isEmpty
      · rw [if_pos nobody]
      · rw [if_neg nobody, here] at member
        exact absurd member detaches.used
    · rw [if_neg here]
      split_ifs at member
      · exact wellFormed.vacant_cleared other ((List.mem_cons.1 member).resolve_left here)
      · exact wellFormed.vacant_cleared other member
  · intro other partition found
    rw [detaches.partitions] at found
    split_ifs at found with here
    · rw [← Option.some.inj found, without]
      split_ifs
      · exact List.nodup_nil
      · exact (wellFormed.members_distinct place owned detaches.found).filter _
    · exact wellFormed.members_distinct other partition found
  · intro other partition found notVacant
    rw [detaches.partitions] at found
    rw [detaches.vacant] at notVacant
    by_cases here : other = place
    · rw [if_pos here, without] at found
      by_cases nobody : (others owned slot).isEmpty
      · rw [if_pos nobody, here] at notVacant
        exact absurd List.mem_cons_self notVacant
      · rw [if_neg nobody] at found
        rw [← Option.some.inj found]
        intro nothing
        exact nobody (List.isEmpty_iff.2 nothing)
    · rw [if_neg here] at found
      apply wellFormed.members_exist other partition found
      intro before
      split_ifs at notVacant
      · exact notVacant (List.mem_cons_of_mem _ before)
      · exact notVacant before

end Arena

end SparseQuantum
