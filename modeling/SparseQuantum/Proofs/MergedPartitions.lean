import Mathlib
import SparseQuantum.Proofs.PartitionIndex
import SparseQuantum.Proofs.ProductAmplitudes
import SparseQuantum.Proofs.RenamedArenas

/-!
# Merging unites the partitions that are met

A merge goes through its slots and absorbs each partition that it meets for the first time. The
owners change on the way, so a slot whose partition was absorbed with an earlier slot is met in the
survivor. What a merge does is therefore read off the owners before it: the survivor takes in the
other partitions that own the slots, each once and in the order in which the slots meet them, and
nothing else changes.
-/

namespace SparseQuantum

set_option autoImplicit false

variable {R : Type}

/-! ### Sizes -/

namespace SparseState

theorem size_tensor [Scalar R] {left right : SparseState R}
    (apart : ∀ first second, left.Stores first → right.Stores second →
      first.isDisjoint second = true) : (left.tensor right).size = left.size * right.size := by
  have pairs := (Amplitudes.entries_perm (distinct_tensor apart)).length_eq
  rw [length_entries, List.length_flatMap] at pairs
  simp only [List.length_map, List.map_const', List.sum_replicate, smul_eq_mul] at pairs
  rw [length_entries, length_entries] at pairs
  exact pairs

end SparseState

namespace Arena

/-- The places other than `survivor` whose partitions own the slots, each once, in the order in
which the slots meet them. -/
def metPlaces (arena : Arena R) (survivor : Nat) (slots : List Nat) : List Nat :=
  ((slots.filterMap arena.owner?).filter (· ≠ survivor)).eraseDups

theorem met_places_survivor {arena : Arena R} {survivor slot : Nat}
    (owner : arena.owner? slot = some survivor) (rest : List Nat) :
    arena.metPlaces survivor (slot :: rest) = arena.metPlaces survivor rest := by
  rw [metPlaces, List.filterMap_cons_some owner, List.filter_cons_of_neg (by simp)]
  rfl

variable [Scalar R]

/-- Once a partition is absorbed it is not met any more. -/
theorem met_places_joined {arena after : Arena R} (wellFormed : arena.WellFormed)
    {survivor place slot : Nat} {target taken : Partition R}
    (joins : Joins arena after survivor place target taken)
    (owner : arena.owner? slot = some place) (rest : List Nat) :
    arena.metPlaces survivor (slot :: rest) = place :: after.metPlaces survivor rest := by
  have owners (other : Nat) : after.owner? other =
      if arena.owner? other = some place then some survivor else arena.owner? other := by
    have member : other ∈ taken.members ↔ arena.owner? other = some place :=
      ⟨wellFormed.owner_of_member joins.taken_found,
        fun owner => wellFormed.member_of_owner owner joins.taken_found⟩
    simp only [joins.owners, member]
  have left : (rest.filterMap after.owner?).filter (· ≠ survivor) =
      ((rest.filterMap arena.owner?).filter (· ≠ survivor)).filter
        fun other => !other == place := by
    induction rest with
    | nil => rfl
    | cons other rest induction =>
        cases held : arena.owner? other with
        | none => simpa [List.filterMap_cons, owners, held] using induction
        | some there =>
            by_cases absorbed : there = place
            · simpa [List.filterMap_cons, owners, held, absorbed] using induction
            · by_cases here : there = survivor
              · simpa [List.filterMap_cons, owners, held, absorbed, here] using induction
              · simpa [List.filterMap_cons, owners, held, absorbed, here] using induction
  rw [metPlaces, List.filterMap_cons_some owner,
    List.filter_cons_of_pos (by simpa using joins.different.symm), List.eraseDups_cons, ← left]
  rfl

/-! ### Absorbing in order -/

inductive Absorbs (survivor : Nat) : Arena R → List Nat → List (Partition R) → Arena R → Prop where
  | nothing (arena : Arena R) : Absorbs survivor arena [] [] arena
  | next {arena after merged : Arena R} {place : Nat} {target taken : Partition R}
      {places : List Nat} {partitions : List (Partition R)}
      (joins : Joins arena after survivor place target taken)
      (rest : Absorbs survivor after places partitions merged) :
      Absorbs survivor arena (place :: places) (taken :: partitions) merged

/-- The induction is on the slots still to be gone through; what they meet is read off the arena
that the earlier ones have left. -/
theorem absorb_all_absorbs {arena : Arena R} (wellFormed : arena.WellFormed) {survivor : Nat}
    {target : Partition R} (found : arena.partitions[survivor]? = some target)
    (used : survivor ∉ arena.vacant) {slots : List Nat} {merged : Arena R}
    (owned : ∀ slot ∈ slots, arena.Owns slot)
    (result : absorbAll survivor arena slots = .ok merged) :
    ∃ partitions, Absorbs survivor arena (arena.metPlaces survivor slots) partitions merged := by
  induction slots generalizing arena target with
  | nil =>
      cases result
      exact ⟨[], .nothing _⟩
  | cons slot rest induction =>
      obtain ⟨place, owner⟩ := owned slot List.mem_cons_self
      obtain ⟨taken, takenFound, _⟩ := wellFormed.partition_of_owner owner
      have later : ∀ other ∈ rest, arena.Owns other :=
        fun other member => owned other (List.mem_cons_of_mem slot member)
      rcases absorb_all_cons wellFormed found used owner takenFound rest with
        ⟨member, same⟩ | ⟨_, after, joins, same⟩
      · rw [same] at result
        rw [met_places_survivor (wellFormed.owner_of_member found member)]
        exact induction wellFormed found used later result
      · rw [same] at result
        have joined := (joins.partitions survivor).trans (if_pos rfl)
        have stillUsed : survivor ∉ after.vacant := by
          rw [joins.vacant, List.mem_cons, not_or]
          exact ⟨joins.different, used⟩
        obtain ⟨partitions, absorbs⟩ := induction (joins_well_formed wellFormed joins) joined
          stillUsed (fun other member => (joins_owns_iff wellFormed joins other).2
            (later other member)) result
        rw [met_places_joined wellFormed joins owner]
        exact ⟨taken :: partitions, .next joins absorbs⟩

namespace Absorbs

variable {arena merged : Arena R} {survivor : Nat} {places : List Nat}
  {partitions : List (Partition R)} (absorbs : Absorbs survivor arena places partitions merged)

include absorbs

theorem well_formed (wellFormed : arena.WellFormed) : merged.WellFormed := by
  induction absorbs with
  | nothing => exact wellFormed
  | next joins _ induction => exact induction (joins_well_formed wellFormed joins)

theorem used {place : Nat} (member : place ∈ places) :
    place ≠ survivor ∧ place ∉ arena.vacant := by
  induction absorbs with
  | nothing => cases member
  | next joins _ induction =>
      rcases List.mem_cons.1 member with here | later
      · rw [here]
        exact ⟨joins.different.symm, joins.taken_used⟩
      · have stillUsed := induction later
        rw [joins.vacant, List.mem_cons, not_or] at stillUsed
        exact ⟨stillUsed.1, stillUsed.2.2⟩

theorem vacant_eq : merged.vacant = places.reverse ++ arena.vacant := by
  induction absorbs with
  | nothing => rfl
  | next joins _ induction => simp [induction, joins.vacant]

theorem size_eq : merged.partitions.size = arena.partitions.size := by
  induction absorbs with
  | nothing => rfl
  | next joins _ induction => rw [induction, joins_size joins]

/-- A place that is not absorbed keeps its partition and the slots that it owns. -/
theorem elsewhere {other : Nat} (notSurvivor : other ≠ survivor) (absent : other ∉ places) :
    merged.partitions[other]? = arena.partitions[other]? ∧
      (other ∈ merged.vacant ↔ other ∈ arena.vacant) := by
  induction absorbs with
  | nothing => exact ⟨rfl, Iff.rfl⟩
  | next joins _ induction =>
      rw [List.mem_cons, not_or] at absent
      obtain ⟨partitions, vacant⟩ := induction absent.2
      rw [partitions, vacant, joins.partitions, if_neg notSurvivor, if_neg absent.1, joins.vacant,
        List.mem_cons, or_iff_right absent.1]
      exact ⟨rfl, Iff.rfl⟩

theorem found : places.map (arena.partitions[·]?) = partitions.map some := by
  induction absorbs with
  | nothing => rfl
  | @next arena after _ place _ _ places _ joins rest induction =>
      rw [List.map_cons, List.map_cons, joins.taken_found, ← induction]
      congr 1
      apply List.map_congr_left
      intro other member
      have stillUsed := rest.used member
      rw [joins.vacant, List.mem_cons, not_or] at stillUsed
      rw [joins.partitions, if_neg stillUsed.1, if_neg stillUsed.2.1]

theorem survivor_found {target : Partition R}
    (found : arena.partitions[survivor]? = some target) :
    merged.partitions[survivor]? = some (partitions.foldl both target) := by
  induction absorbs generalizing target with
  | nothing => exact found
  | next joins _ induction =>
      cases found.symm.trans joins.target_found
      exact induction ((joins.partitions survivor).trans (if_pos rfl))

theorem count_eq (wellFormed : arena.WellFormed) : ∃ count,
    arena.count = .ok (count + places.length) ∧ merged.count = .ok count := by
  have before := wellFormed.vacant_length_le
  have after := (absorbs.well_formed wellFormed).vacant_length_le
  refine ⟨merged.partitions.size - merged.vacant.length, ?_, ?_⟩
  · rw [count, if_pos before]
    rw [absorbs.size_eq, absorbs.vacant_eq, List.length_append, List.length_reverse] at after ⊢
    congr 1
    omega
  · rw [count, if_pos after]

/-- Partitions that keep to their members are disjoint, so each join multiplies the entries. -/
theorem size_state_eq (wellFormed : arena.WellFormed) (isLocal : arena.Local)
    {target : Partition R} (found : arena.partitions[survivor]? = some target) :
    (partitions.foldl both target).state.size =
      target.state.size * (partitions.map (·.state.size)).prod := by
  induction absorbs generalizing target with
  | nothing => simp
  | @next _ _ _ _ target taken _ _ joins _ induction =>
      cases found.symm.trans joins.target_found
      have apart := wellFormed.members_disjoint joins.target_found joins.taken_found
        joins.different
      have product : (both target taken).state.size = target.state.size * taken.state.size :=
        SparseState.size_tensor fun _ _ => Partition.disjoint_of_local
          (isLocal _ _ joins.target_found) (isLocal _ _ joins.taken_found) apart
      rw [List.foldl_cons, induction (joins_well_formed wellFormed joins)
        (joins_local isLocal joins) ((joins.partitions survivor).trans (if_pos rfl)), product,
        List.map_cons, List.prod_cons, mul_assoc]

end Absorbs

theorem foldl_both (partitions : List (Partition R)) (target : Partition R) :
    partitions.foldl both target =
      ⟨partitions.foldl (fun state partition => state.tensor partition.state) target.state,
        target.members ++ partitions.flatMap (·.members)⟩ := by
  induction partitions generalizing target with
  | nil => simp
  | cons taken rest induction => simp [induction, both]

theorem merge_absorbs {arena : Arena R} (wellFormed : arena.WellFormed) {first : Nat}
    {others : List Nat} (owned : ∀ slot ∈ first :: others, arena.Owns slot) :
    ∃ place merged target partitions, arena.owner? first = some place ∧
      arena.partitions[place]? = some target ∧ arena.merge first others = .ok (place, merged) ∧
      Absorbs place arena (arena.metPlaces place others) partitions merged ∧
      ∀ slot ∈ first :: others, merged.owner? slot = some place := by
  obtain ⟨place, merged, partition, gathers⟩ := merge_gathers wellFormed first others owned
  obtain ⟨owner, absorbed⟩ := owner_of_merge gathers.result
  obtain ⟨target, found, _, used⟩ := wellFormed.partition_of_owner owner
  obtain ⟨partitions, absorbs⟩ := absorb_all_absorbs wellFormed found used
    (fun slot member => owned slot (List.mem_cons_of_mem first member)) absorbed
  exact ⟨place, merged, target, partitions, owner, found, gathers.result, absorbs,
    fun slot member => gathers.owner_eq member⟩

/-- The place that owned the first slot gets the members and the tensor product of the partitions
met, each once, in order of first appearance, with as many entries as the product of their numbers.
It owns all the slots then, the other partitions stay as they are, as many fewer are counted as were
absorbed, and merging such slots again changes nothing. -/
structure Unites (arena merged : Arena R) (first : Nat) (others : List Nat) (place : Nat)
    (target : Partition R) (taken : List (Partition R)) (united : SparseState R) : Prop where
  owner : arena.owner? first = some place
  target_found : arena.partitions[place]? = some target
  taken_found : (arena.metPlaces place others).map (arena.partitions[·]?) = taken.map some
  state_eq : united =
    taken.foldl (fun state partition => state.tensor partition.state) target.state
  size_eq : united.size = target.state.size * (taken.map (·.state.size)).prod
  united_found : merged.partitions[place]? =
    some ⟨united, target.members ++ taken.flatMap (·.members)⟩
  owners : ∀ slot ∈ first :: others, merged.owner? slot = some place
  elsewhere : ∀ other, other ≠ place → other ∉ arena.metPlaces place others →
    merged.partitions[other]? = arena.partitions[other]? ∧
    (other ∈ merged.vacant ↔ other ∈ arena.vacant) ∧
    ∀ slot, merged.owner? slot = some other ↔ arena.owner? slot = some other
  count_eq : ∃ count, merged.count = .ok count ∧
    arena.count = .ok (count + (arena.metPlaces place others).length)
  again : ∀ again ∈ first :: others, ∀ rest, rest ⊆ first :: others →
    merged.merge again rest = .ok (place, merged)

end Arena

namespace Simulator

variable [Scalar R]

/-- As long as plugins keep the positions that are no targets, merging owned slots is the union of
their partitions. -/
theorem merge_unites {simulator : Simulator R} (arises : ArisesBy KeepsOthers simulator)
    {first : Nat} {others : List Nat}
    (owned : ∀ slot ∈ first :: others, simulator.arena.Owns slot) :
    ∃ (place : Nat) (merged : Arena R) (target : Partition R) (taken : List (Partition R))
        (united : SparseState R),
      simulator.arena.merge first others = .ok (place, merged) ∧
      simulator.arena.Unites merged first others place target taken united := by
  have wellFormed : simulator.arena.WellFormed := (arises_sound arises.arises).unlimited.arena
  have isLocal := arises_by_local arises
  obtain ⟨place, merged, target, taken, owner, found, result, absorbs, owners⟩ :=
    Arena.merge_absorbs wellFormed owned
  have mergedFormed := absorbs.well_formed wellFormed
  obtain ⟨count, before, after⟩ := absorbs.count_eq wellFormed
  let united := taken.foldl (fun state partition => state.tensor partition.state) target.state
  refine ⟨place, merged, target, taken, united, result, ?_⟩
  exact {
    owner := owner
    target_found := found
    taken_found := absorbs.found
    state_eq := rfl
    size_eq := by rw [← absorbs.size_state_eq wellFormed isLocal found, Arena.foldl_both]
    united_found := by rw [absorbs.survivor_found found, Arena.foldl_both]
    owners := owners
    elsewhere := fun other notPlace absent => by
      obtain ⟨partitions, vacant⟩ := absorbs.elsewhere notPlace absent
      refine ⟨partitions, vacant, fun slot => ?_⟩
      rw [mergedFormed.owner_iff, wellFormed.owner_iff, partitions]
    count_eq := ⟨count, after, before⟩
    again := fun again member rest within => by
      apply Arena.merge_of_owned
      intro slot source
      rcases List.mem_cons.1 source with same | later
      · rw [same]
        exact owners again member
      · exact owners slot (within later) }

def lastTwoJoined : Simulator Float :=
  leaves ((Operation.dump [⟨3⟩, ⟨2⟩]).perform
    (leaves ((Operation.alloc ⟨3⟩ false).perform
      (leaves ((Operation.alloc ⟨2⟩ false).perform
        (leaves ((Operation.alloc ⟨1⟩ false).perform
          (leaves ((Operation.alloc ⟨0⟩ false).perform (ofSeed width 7))))))))))

/-- The joined pair is met with slot 2 and recognised with slot 3. -/
theorem last_two_joined_united :
    ArisesBy KeepsOthers lastTwoJoined ∧
    lastTwoJoined.arena.metPlaces 0 [2, 3, 1, 2, 0] = [3, 1] ∧
    ∃ merged united, lastTwoJoined.arena.merge 0 [2, 3, 1, 2, 0] = .ok (0, merged) ∧
      merged.partitions[0]? = some ⟨united, [0, 3, 2, 1]⟩ ∧ united.size = 1 ∧
      lastTwoJoined.arena.count = .ok 3 ∧ merged.count = .ok 1 ∧
      merged.merge 3 [1] = .ok (0, merged) := by
  have arises : ArisesBy KeepsOthers lastTwoJoined :=
    .performed (.performed (.performed (.performed (.performed
      (.seeded (.started (fun _ => none) "plugins" "dumps" 7) 7)
        trivial) trivial) trivial) trivial) trivial
  have met : lastTwoJoined.arena.metPlaces 0 [2, 3, 1, 2, 0] = [3, 1] := by decide +kernel
  have owned : ∀ slot ∈ [0, 2, 3, 1, 2, 0],
      (lastTwoJoined.arena.owner? slot).isSome = true := by decide +kernel
  have shapes : [0, 3, 1].map (fun place => lastTwoJoined.arena.partitions[place]?.map fun
      partition => (partition.members, partition.state.size)) =
        [some ([0], 1), some ([3, 2], 1), some ([1], 1)] := by decide +kernel
  have counted : lastTwoJoined.arena.count = .ok 3 := by decide +kernel
  obtain ⟨place, merged, target, taken, united, result, unites⟩ :=
    @merge_unites Float _ lastTwoJoined arises 0 [2, 3, 1, 2, 0]
      fun slot member => Option.isSome_iff_exists.1 (owned slot member)
  cases unites.owner.symm.trans (by decide +kernel : lastTwoJoined.arena.owner? 0 = some 0)
  obtain ⟨count, after, before⟩ := unites.count_eq
  have absorbed := unites.taken_found
  rw [met] at absorbed before
  obtain ⟨pair, single, both⟩ : ∃ pair single, taken = [pair, single] := by
    have length := congrArg List.length absorbed
    simp only [List.length_map] at length
    exact List.length_eq_two.1 length.symm
  cases both
  simp only [List.map_cons, List.map_nil, List.cons.injEq, and_true] at absorbed shapes
  rw [unites.target_found, absorbed.1, absorbed.2] at shapes
  simp only [Option.map_some, Option.some.injEq, Prod.mk.injEq] at shapes
  obtain ⟨⟨targetMembers, targetSize⟩, ⟨pairMembers, pairSize⟩, singleMembers, singleSize⟩ := shapes
  refine ⟨arises, met, merged, united, result, ?_, ?_, counted, ?_,
    unites.again 3 (by decide) [1] (by decide)⟩
  · simp [unites.united_found, targetMembers, pairMembers, singleMembers]
  · simp [unites.size_eq, targetSize, pairSize, singleSize]
  · have one := counted.symm.trans before
    rw [Except.ok.injEq] at one
    rw [after, Nat.add_right_cancel (one.symm.trans rfl : count + 2 = 1 + 2)]

end Simulator

end SparseQuantum
