import Mathlib
import SparseQuantum.Proofs.RenamedArenas

/-!
# Gathered partitions

What an arena says is which partition owns each slot. Gathering slots joins, in order, the
partitions that own them, and the joined partition then owns all the slots that those did; so the
result is read off the owners of the slots that are gathered, wherever the partitions stand.
-/

namespace SparseQuantum

set_option autoImplicit false

variable {R : Type}

abbrev Ownership (R : Type) := Nat → Option (Partition R)

namespace Ownership

def put (owned : Ownership R) (partition : Partition R) : Ownership R :=
  fun slot => if slot ∈ partition.members then some partition else owned slot

theorem put_of_mem (owned : Ownership R) {partition : Partition R} {slot : Nat}
    (member : slot ∈ partition.members) : owned.put partition slot = some partition := if_pos member

theorem put_of_not_mem (owned : Ownership R) {partition : Partition R} {slot : Nat}
    (absent : slot ∉ partition.members) : owned.put partition slot = owned slot := if_neg absent

theorem put_put_of_subset (owned : Ownership R) {first second : Partition R}
    (within : first.members ⊆ second.members) :
    (owned.put first).put second = owned.put second := by
  funext slot
  by_cases member : slot ∈ second.members
  · rw [put_of_mem _ member, put_of_mem _ member]
  · rw [put_of_not_mem _ member, put_of_not_mem _ member,
      put_of_not_mem _ fun here => member (within here)]

theorem put_comm (owned : Ownership R) {first second : Partition R}
    (apart : List.Disjoint first.members second.members) :
    (owned.put first).put second = (owned.put second).put first := by
  funext slot
  by_cases inFirst : slot ∈ first.members
  · rw [put_of_not_mem _ (apart inFirst), put_of_mem _ inFirst, put_of_mem _ inFirst]
  · by_cases inSecond : slot ∈ second.members
    · rw [put_of_mem _ inSecond, put_of_not_mem _ inFirst, put_of_mem _ inSecond]
    · rw [put_of_not_mem _ inSecond, put_of_not_mem _ inFirst, put_of_not_mem _ inFirst,
        put_of_not_mem _ inSecond]

variable [Scalar R]

/-- The partition together with the one that owns `slot`, unless it has the slot already. -/
def join (owned : Ownership R) (target : Partition R) (slot : Nat) : Partition R :=
  if slot ∈ target.members then target
  else
    match owned slot with
    | some taken => Arena.both target taken
    | none => target

/-- The partition together with those that own the slots, in order. -/
def gather (owned : Ownership R) (target : Partition R) (slots : List Nat) : Partition R :=
  slots.foldl owned.join target

theorem join_of_mem (owned : Ownership R) {target : Partition R} {slot : Nat}
    (member : slot ∈ target.members) : owned.join target slot = target := if_pos member

theorem join_of_owner {owned : Ownership R} {target taken : Partition R} {slot : Nat}
    (absent : slot ∉ target.members) (owner : owned slot = some taken) :
    owned.join target slot = Arena.both target taken := by
  rw [join, if_neg absent, owner]

theorem join_congr {owned other : Ownership R} {target : Partition R} {slot : Nat}
    (same : slot ∉ target.members → owned slot = other slot) :
    owned.join target slot = other.join target slot := by
  rw [join, join]
  split_ifs with member
  · rfl
  · rw [same member]

theorem subset_join (owned : Ownership R) (target : Partition R) (slot : Nat) :
    target.members ⊆ (owned.join target slot).members := by
  rw [join]
  split_ifs
  · exact List.Subset.refl _
  · split
    · exact List.subset_append_left _ _
    · exact List.Subset.refl _

theorem subset_gather (owned : Ownership R) (target : Partition R) (slots : List Nat) :
    target.members ⊆ (owned.gather target slots).members := by
  induction slots generalizing target with
  | nil => exact List.Subset.refl _
  | cons slot rest induction =>
      exact List.Subset.trans (subset_join owned target slot) (induction (owned.join target slot))

theorem gather_congr {owned other : Ownership R} {target : Partition R} {slots : List Nat}
    (same : ∀ slot ∈ slots, slot ∉ target.members → owned slot = other slot) :
    owned.gather target slots = other.gather target slots := by
  induction slots generalizing target with
  | nil => rfl
  | cons slot rest induction =>
      rw [gather, gather, List.foldl_cons, List.foldl_cons,
        join_congr (same slot List.mem_cons_self)]
      exact induction fun later member absent => same later (List.mem_cons_of_mem slot member)
        fun here => absent (subset_join other target slot here)

/-- What is gathered comes from the partition that gathers or from the owner of a slot. -/
theorem mem_gather {owned : Ownership R} {target : Partition R} {slots : List Nat} {member : Nat}
    (here : member ∈ (owned.gather target slots).members) :
    member ∈ target.members ∨
      ∃ slot ∈ slots, ∃ taken, owned slot = some taken ∧ member ∈ taken.members := by
  induction slots generalizing target with
  | nil => exact Or.inl here
  | cons slot rest induction =>
      change member ∈ (owned.gather (owned.join target slot) rest).members at here
      rcases induction here with joined | ⟨later, listed, source⟩
      · rw [join] at joined
        split_ifs at joined
        · exact Or.inl joined
        · split at joined
          · next taken owner =>
              rcases List.mem_append.1 joined with old | new
              · exact Or.inl old
              · exact Or.inr ⟨slot, List.mem_cons_self, taken, owner, new⟩
          · exact Or.inl joined
      · exact Or.inr ⟨later, List.mem_cons_of_mem slot listed, source⟩

end Ownership

/-! ### Gathering in an arena -/

namespace Arena

variable [Scalar R]

theorem put_self {arena : Arena R} (wellFormed : arena.WellFormed) {place : Nat}
    {partition : Partition R} (found : arena.partitions[place]? = some partition) :
    Ownership.put arena.partitionOf? partition = arena.partitionOf? := by
  funext slot
  by_cases member : slot ∈ partition.members
  · rw [Ownership.put_of_mem _ member, partition_of_member wellFormed found member]
  · rw [Ownership.put_of_not_mem _ member]

theorem partition_of_with_state_put {arena : Arena R} (wellFormed : arena.WellFormed) {place : Nat}
    {partition : Partition R} (found : arena.partitions[place]? = some partition)
    (used : place ∉ arena.vacant) (state : SparseState R) :
    (arena.withState place state).partitionOf? =
      Ownership.put arena.partitionOf? { partition with state } :=
  funext (partition_of_with_state wellFormed found used state)

/-- The induction is on the slots still to be absorbed. What the partition has already is not read
any more, so each step may read the owners before or after it. -/
theorem absorb_all_gathers {arena merged : Arena R} (wellFormed : arena.WellFormed)
    {survivor : Nat} {target : Partition R} (found : arena.partitions[survivor]? = some target)
    (used : survivor ∉ arena.vacant) {slots : List Nat} (owned : ∀ slot ∈ slots, arena.Owns slot)
    (result : absorbAll survivor arena slots = .ok merged) :
    merged.partitions[survivor]? = some (Ownership.gather arena.partitionOf? target slots) ∧
      merged.partitionOf? = Ownership.put arena.partitionOf?
        (Ownership.gather arena.partitionOf? target slots) := by
  induction slots generalizing arena target with
  | nil =>
      rw [absorbAll, Except.ok.injEq] at result
      rw [← result]
      exact ⟨found, (put_self wellFormed found).symm⟩
  | cons slot rest induction =>
      obtain ⟨place, owner⟩ := owned slot List.mem_cons_self
      obtain ⟨taken, takenFound, _⟩ := wellFormed.partition_of_owner owner
      have later : ∀ other ∈ rest, arena.Owns other :=
        fun other member => owned other (List.mem_cons_of_mem slot member)
      rw [Ownership.gather, List.foldl_cons]
      rcases absorb_all_cons wellFormed found used owner takenFound rest with
        ⟨member, same⟩ | ⟨absent, after, joins, same⟩
      · rw [same] at result
        rw [Ownership.join_of_mem _ member]
        exact induction wellFormed found used later result
      · rw [same] at result
        have afterOwned :
            after.partitionOf? = Ownership.put arena.partitionOf? (both target taken) :=
          funext (partition_of_joins wellFormed joins)
        have joined := (joins.partitions survivor).trans (if_pos rfl)
        have stillUsed : survivor ∉ after.vacant := by
          rw [joins.vacant, List.mem_cons, not_or]
          exact ⟨joins.different, used⟩
        have reads : Ownership.gather after.partitionOf? (both target taken) rest =
            Ownership.gather arena.partitionOf? (both target taken) rest := by
          apply Ownership.gather_congr
          intro other _ missing
          rw [afterOwned, Ownership.put_of_not_mem _ missing]
        obtain ⟨stands, owners⟩ := induction (joins_well_formed wellFormed joins) joined stillUsed
          (fun other member => (joins_owns_iff wellFormed joins other).2 (later other member))
          result
        rw [reads] at stands owners
        rw [afterOwned, Ownership.put_put_of_subset _ (Ownership.subset_gather _ _ _)] at owners
        rw [Ownership.join_of_owner absent (partition_of_owner owner takenFound)]
        exact ⟨stands, owners⟩

theorem gathers_reads {arena merged : Arena R} (wellFormed : arena.WellFormed) {first place : Nat}
    {others : List Nat} {partition : Partition R}
    (gathers : Gathers arena merged first others place partition) :
    ∃ target, arena.partitionOf? first = some target ∧
      partition = Ownership.gather arena.partitionOf? target others ∧
      merged.partitionOf? = Ownership.put arena.partitionOf? partition := by
  obtain ⟨owner, result⟩ := owner_of_merge gathers.result
  obtain ⟨target, found, _, used⟩ := wellFormed.partition_of_owner owner
  have owned : ∀ slot ∈ others, arena.Owns slot := fun slot member =>
    (merges_owns_iff gathers.merges slot).1
      ⟨place, gathers.owner_eq (List.mem_cons_of_mem first member)⟩
  obtain ⟨stands, owners⟩ := absorb_all_gathers wellFormed found used owned result
  have same := gathers.found.symm.trans stands
  rw [Option.some.injEq] at same
  rw [← same] at owners
  exact ⟨target, partition_of_owner owner found, same, owners⟩

end Arena

end SparseQuantum
