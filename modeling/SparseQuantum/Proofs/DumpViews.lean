import Mathlib
import SparseQuantum.Proofs.Branches
import SparseQuantum.Proofs.Refusals
import SparseQuantum.Proofs.SupportLocality

/-!
# What a dump shows

A dump lists the patterns that the requested qubits have in some basis state, in strictly ascending
order, and under each pattern the amplitudes of all basis states that have it. The other positions
of the state are not seen, wherever they stand, so the order of the entries and the layout do not
matter. Taking a dump changes no state, and taking it again gives the same record.
-/

namespace SparseQuantum

set_option autoImplicit false

/-! ### Patterns -/

namespace Dump

def bitAt (pattern : List Word) (position : Nat) : Bool :=
  (pattern[position / wordBits]?.getD 0).getLsbD (position % wordBits)

/-- As many words as `size` positions take, with nothing above these. -/
structure IsPattern (size : Nat) (pattern : List Word) : Prop where
  length_eq : pattern.length = (size + (wordBits - 1)) / wordBits
  clear : ∀ position, size ≤ position → bitAt pattern position = false

theorem IsPattern.ext {size : Nat} {left right : List Word} (leftPattern : IsPattern size left)
    (rightPattern : IsPattern size right)
    (same : ∀ position, position < size → bitAt left position = bitAt right position) :
    left = right := by
  have everywhere (position : Nat) : bitAt left position = bitAt right position := by
    rcases Nat.lt_or_ge position size with below | above
    · exact same position below
    · rw [leftPattern.clear position above, rightPattern.clear position above]
  apply List.ext_getElem (by rw [leftPattern.length_eq, rightPattern.length_eq])
  intro index inLeft inRight
  apply BitVec.eq_of_getLsbD_eq
  intro bit inside
  have here := everywhere (wordBits * index + bit)
  have word : (wordBits * index + bit) / wordBits = index := by
    rw [Nat.mul_add_div (by decide), Nat.div_eq_of_lt inside, Nat.add_zero]
  have low : (wordBits * index + bit) % wordBits = bit := by
    rw [Nat.mul_add_mod, Nat.mod_eq_of_lt inside]
  rw [bitAt, bitAt, word, low, List.getElem?_eq_getElem inLeft,
    List.getElem?_eq_getElem inRight] at here
  exact here

/-- The first words that differ decide the order of two patterns. -/
theorem lt_of_compare {left right : List Word} (below : compare left right = .lt) :
    left < right := by
  change List.compareLex compare left right = .lt at below
  induction left generalizing right with
  | nil =>
      cases right with
      | nil => cases below
      | cons word rest => exact List.Lex.nil
  | cons first rest induction =>
      cases right with
      | nil => cases below
      | cons word others =>
          rw [List.compareLex_cons_cons, Ordering.then_eq_lt] at below
          rcases below with less | ⟨same, later⟩
          · exact List.Lex.rel (compareOfLessAndEq_eq_lt.1 less)
          · rw [Std.LawfulEqOrd.eq_of_compare same]
            exact List.Lex.cons (induction later)

end Dump

namespace BasisState

theorem get_lsb_low_mask (count bit : Nat) :
    (lowMask count).getLsbD bit = decide (bit < count ∧ bit < wordBits) := by
  rw [lowMask]
  split_ifs with whole
  · rw [BitVec.getLsbD_allOnes, decide_eq_decide]
    omega
  · have below : count < wordBits := Nat.lt_of_not_le whole
    have bound : 2 ^ count < 2 ^ wordBits := Nat.pow_lt_pow_right (by decide) below
    have ones : (BitVec.twoPow wordBits count - 1).toNat = 2 ^ count - 1 := by
      have positive : 0 < 2 ^ count := Nat.two_pow_pos count
      rw [BitVec.toNat_sub_of_le, BitVec.toNat_twoPow_of_lt below]
      · rfl
      · rw [BitVec.le_def, BitVec.toNat_twoPow_of_lt below]
        exact positive
    rw [BitVec.getLsbD, ones, Nat.testBit_two_pow_sub_one, decide_eq_decide]
    omega

/-- Truncating keeps the lowest positions. -/
theorem bit_at_truncate (index : BasisState) {size : Nat} (inside : size ≤ width) (position : Nat) :
    Dump.bitAt (index.truncate size) position =
      (decide (position < size) && index.isOne position) := by
  have low := Nat.mod_lt position (show 0 < wordBits by decide)
  have split := Nat.div_add_mod position wordBits
  rw [Dump.bitAt, truncate, Nat.min_eq_left inside, List.getElem?_map]
  by_cases listed : position / wordBits < (size + (wordBits - 1)) / wordBits
  · rw [List.getElem?_range listed, Option.map_some, Option.getD_some, BitVec.getLsbD_and,
      get_lsb_low_mask, Bool.and_comm]
    congr 1
    rw [decide_eq_decide]
    omega
  · have outside : ¬position < size := by
      simp only [wordBits] at listed
      omega
    rw [List.getElem?_eq_none (by simpa using Nat.le_of_not_lt listed), decide_eq_false outside]
    simp

theorem truncate_is_pattern (index : BasisState) {size : Nat} (inside : size ≤ width) :
    Dump.IsPattern size (index.truncate size) where
  length_eq := by
    rw [truncate, Nat.min_eq_left inside, List.length_map, List.length_range]
  clear position above := by
    rw [bit_at_truncate index inside, decide_eq_false (Nat.not_lt_of_le above), Bool.false_and]

theorem truncate_eq_iff (index : BasisState) {size : Nat} (inside : size ≤ width)
    {pattern : List Word} (isPattern : Dump.IsPattern size pattern) :
    index.truncate size = pattern ↔
      ∀ position, position < size → index.isOne position = Dump.bitAt pattern position := by
  constructor
  · intro same position below
    rw [← same, bit_at_truncate index inside, decide_eq_true below, Bool.true_and]
  · intro same
    apply (truncate_is_pattern index inside).ext isPattern
    intro position below
    rw [bit_at_truncate index inside, decide_eq_true below, Bool.true_and, same position below]

end BasisState

variable {R : Type}

/-! ### Groups -/

namespace SparseState

def collected (entries : List (BasisState × Amplitude R)) (size : Nat) (pattern : List Word) :
    List (Amplitude R) :=
  (entries.filter fun entry => entry.1.truncate size = pattern).map (·.2)

theorem collected_cons (entry : BasisState × Amplitude R)
    (rest : List (BasisState × Amplitude R)) (size : Nat) (pattern : List Word) :
    collected (entry :: rest) size pattern =
      if entry.1.truncate size = pattern then entry.2 :: collected rest size pattern
      else collected rest size pattern := by
  split_ifs with here
  · rw [collected, List.filter_cons_of_pos (by simpa using here)]
    rfl
  · rw [collected, List.filter_cons_of_neg (by simpa using here)]
    rfl

theorem get_foldl_collect (entries : List (BasisState × Amplitude R)) (size : Nat)
    (start : Std.ExtTreeMap (List Word) (List (Amplitude R)) compare) (pattern : List Word) :
    (entries.foldl (fun groups entry => groups.alter (entry.1.truncate size) fun old =>
        some (old.getD [] ++ [entry.2])) start)[pattern]? =
      if collected entries size pattern = [] then start[pattern]?
      else some (start[pattern]?.getD [] ++ collected entries size pattern) := by
  induction entries generalizing start with
  | nil => rfl
  | cons entry rest induction =>
      rw [List.foldl_cons, induction, collected_cons]
      by_cases here : entry.1.truncate size = pattern
      · rw [here, Std.ExtTreeMap.getElem?_alter_self, if_pos rfl, if_neg (List.cons_ne_nil _ _)]
        split_ifs with nothing
        · rw [nothing]
        · rw [Option.getD_some, List.append_assoc, List.singleton_append]
      · rw [Std.ExtTreeMap.getElem?_alter,
          if_neg fun same => here (Std.LawfulEqOrd.eq_of_compare same), if_neg here]

theorem get_patterns (state : SparseState R) (size : Nat) (pattern : List Word) :
    (state.patterns size)[pattern]? =
      if collected state.entries size pattern = [] then none
      else some (collected state.entries size pattern) := by
  have start : (.empty : Std.ExtTreeMap (List Word) (List (Amplitude R)) compare)[pattern]? =
      none := by
    change (∅ : Std.ExtTreeMap (List Word) (List (Amplitude R)) compare)[pattern]? = none
    rw [Std.ExtTreeMap.getElem?_empty]
  rw [patterns, get_foldl_collect, start]
  rfl

variable [Scalar R]

theorem mem_groups_iff (state : SparseState R) (size : Nat) (group : DumpGroup R) :
    group ∈ (state.dump size).groups ↔
      collected state.entries size group.pattern ≠ [] ∧
        group.amplitudes = (collected state.entries size group.pattern).mergeSort
          fun left right => (left.totalOrder right).isLE := by
  rw [dump, List.mem_map]
  constructor
  · rintro ⟨⟨pattern, amplitudes⟩, member, same⟩
    rw [Std.ExtTreeMap.mem_toList_iff_getElem?_eq_some, get_patterns] at member
    split_ifs at member with nothing
    rw [← same, Option.some.inj member]
    exact ⟨by rw [← Option.some.inj member]; exact nothing, rfl⟩
  · rcases group with ⟨pattern, amplitudes⟩
    rintro ⟨something, sorted⟩
    refine ⟨(pattern, collected state.entries size pattern), ?_, ?_⟩
    · rw [Std.ExtTreeMap.mem_toList_iff_getElem?_eq_some, get_patterns, if_neg something]
    · exact congrArg (DumpGroup.mk pattern) sorted.symm

theorem exists_group_iff (state : SparseState R) (size : Nat) (pattern : List Word) :
    (∃ group ∈ (state.dump size).groups, group.pattern = pattern) ↔
      ∃ entry ∈ state.entries, entry.1.truncate size = pattern := by
  constructor
  · rintro ⟨group, member, rfl⟩
    obtain ⟨amplitude, collects⟩ :=
      List.exists_mem_of_ne_nil _ ((mem_groups_iff state size group).1 member).1
    obtain ⟨entry, source, _⟩ := List.mem_map.1 collects
    obtain ⟨listed, same⟩ := List.mem_filter.1 source
    exact ⟨entry, listed, of_decide_eq_true same⟩
  · rintro ⟨entry, listed, same⟩
    let group : DumpGroup R := ⟨pattern, (collected state.entries size pattern).mergeSort
      fun left right => (left.totalOrder right).isLE⟩
    have something : collected state.entries size pattern ≠ [] :=
      List.ne_nil_of_mem (List.mem_map_of_mem (List.mem_filter.2 ⟨listed, decide_eq_true same⟩))
    exact ⟨group, (mem_groups_iff state size group).2 ⟨something, rfl⟩, rfl⟩

theorem amplitudes_perm_collected {state : SparseState R} {size : Nat} {group : DumpGroup R}
    (member : group ∈ (state.dump size).groups) :
    group.amplitudes.Perm (collected state.entries size group.pattern) := by
  rw [((mem_groups_iff state size group).1 member).2]
  exact List.mergeSort_perm _ _

theorem groups_ascending (state : SparseState R) (size : Nat) :
    (state.dump size).groups.Pairwise fun left right => left.pattern < right.pattern := by
  rw [dump, List.pairwise_map]
  exact Std.ExtTreeMap.ordered_keys_toList.imp Dump.lt_of_compare

end SparseState

/-! ### Sorted amplitudes -/

namespace Amplitude

variable [Scalar R] [Std.TransCmp (Scalar.totalOrder : R → R → Ordering)]

/-- Comparing both parts by a total order is one. -/
instance : Std.TransCmp (totalOrder : Amplitude R → Amplitude R → Ordering) := by
  let order : Ord R := ⟨Scalar.totalOrder⟩
  have transitive : Std.TransOrd R := ‹Std.TransCmp Scalar.totalOrder›
  exact inferInstanceAs (Std.TransCmp (compareLex (compareOn Amplitude.re)
    (compareOn Amplitude.im)))

theorem sorted_merge_sort (amplitudes : List (Amplitude R)) :
    (amplitudes.mergeSort fun left right => (left.totalOrder right).isLE).Pairwise
      fun left right => (left.totalOrder right).isLE = true := by
  apply List.pairwise_mergeSort
  · intro first second third below above
    exact Std.TransCmp.isLE_trans below above
  · intro first second
    have swapped : first.totalOrder second = (second.totalOrder first).swap :=
      Std.OrientedCmp.eq_swap
    rw [swapped]
    cases second.totalOrder first <;> rfl

end Amplitude

theorem SparseState.sorted_of_mem_groups [Scalar R]
    [Std.TransCmp (Scalar.totalOrder : R → R → Ordering)] {state : SparseState R} {size : Nat}
    {group : DumpGroup R} (member : group ∈ (state.dump size).groups) :
    group.amplitudes.Pairwise fun left right => (left.totalOrder right).isLE = true := by
  rw [((mem_groups_iff state size group).1 member).2]
  exact Amplitude.sorted_merge_sort _

instance : Std.TransCmp (Scalar.totalOrder : Float → Float → Ordering) :=
  inferInstanceAs (Std.TransCmp (compareOn fun value : Float =>
    MachineFloat.orderKey value.toBits))

/-! ### Views of states -/

/-- The state has the pattern at the slots, the first slot in the lowest bit. -/
def BasisState.Shows (index : BasisState) (slots : List Nat) (pattern : List Word) : Prop :=
  ∀ (place : Nat) (inside : place < slots.length),
    index.isOne slots[place] = Dump.bitAt pattern place

instance (index : BasisState) (slots : List Nat) (pattern : List Word) :
    Decidable (index.Shows slots pattern) :=
  inferInstanceAs (Decidable (∀ (place : Nat) (inside : place < slots.length),
    index.isOne slots[place] = Dump.bitAt pattern place))

/-- The record shows what the state has at the slots, and nothing else. -/
structure Dump.Views [Scalar R] (record : Dump R) (state : SparseState R) (slots : List Nat) :
    Prop where
  qubits_eq : record.qubits = slots.length
  pattern : ∀ group ∈ record.groups, IsPattern slots.length group.pattern
  ascending : record.groups.Pairwise fun left right => left.pattern < right.pattern
  occurs_iff : ∀ pattern, IsPattern slots.length pattern →
    ((∃ group ∈ record.groups, group.pattern = pattern) ↔
      ∃ index, state.Stores index ∧ index.Shows slots pattern)
  amplitudes_perm : ∀ group ∈ record.groups, group.amplitudes.Perm
    ((state.entries.filter fun entry => entry.1.Shows slots group.pattern).map (·.2))
  sorted : ∀ group ∈ record.groups, group.amplitudes.Pairwise
    fun left right => (left.totalOrder right).isLE = true

namespace SparseState

theorem permute_entries_perm {sigma : Equiv.Perm Nat} (rearranges : BasisState.Rearranges sigma)
    (state : SparseState R) :
    (state.permute sigma).entries.Perm
      (state.entries.map fun entry => (entry.1.permute sigma, entry.2)) :=
  state.rekey_entries_perm (BasisState.permute_injective rearranges)

/-- In canonical layout the lowest positions show what the slots did. -/
theorem truncate_permute_eq_iff {slots : List Nat} (distinct : slots.Nodup)
    (inside : ∀ slot ∈ slots, slot < width) (index : BasisState) {pattern : List Word}
    (isPattern : Dump.IsPattern slots.length pattern) :
    (index.permute (Layout.permutation (Layout.swaps slots))).truncate slots.length = pattern ↔
      index.Shows slots pattern := by
  have rearranges := Layout.rearranges_permutation (Layout.swaps_bounded distinct inside)
  rw [BasisState.truncate_eq_iff _ (Layout.length_le_width distinct inside) isPattern]
  refine forall₂_congr fun place below => ?_
  have there : Layout.permutation (Layout.swaps slots) slots[place] = place :=
    Layout.permutation_swaps_wanted distinct below
  have read := BasisState.is_one_permute_apply rearranges index slots[place]
  rw [there] at read
  rw [read]

theorem collected_canonical_perm {slots : List Nat} (distinct : slots.Nodup)
    (inside : ∀ slot ∈ slots, slot < width) (state : SparseState R) {pattern : List Word}
    (isPattern : Dump.IsPattern slots.length pattern) :
    (collected (state.permute (Layout.permutation (Layout.swaps slots))).entries slots.length
      pattern).Perm
      ((state.entries.filter fun entry => entry.1.Shows slots pattern).map (·.2)) := by
  have rearranges := Layout.rearranges_permutation (Layout.swaps_bounded distinct inside)
  refine (((permute_entries_perm rearranges state).filter _).map _).trans ?_
  rw [List.filter_map, List.map_map]
  apply List.Perm.of_eq
  congr 1
  apply List.filter_congr
  intro entry _
  have shows := truncate_permute_eq_iff distinct inside entry.1 isPattern
  simp only [Function.comp_apply, shows]

theorem dump_views [Scalar R] [Std.TransCmp (Scalar.totalOrder : R → R → Ordering)]
    {slots : List Nat} (distinct : slots.Nodup) (inside : ∀ slot ∈ slots, slot < width)
    (state : SparseState R) :
    ((state.permute (Layout.permutation (Layout.swaps slots))).dump slots.length).Views state
      slots := by
  have room := Layout.length_le_width distinct inside
  let canonical := state.permute (Layout.permutation (Layout.swaps slots))
  have entries := state.permute_entries_perm
    (Layout.rearranges_permutation (Layout.swaps_bounded distinct inside))
  have isPattern : ∀ group ∈ (canonical.dump slots.length).groups,
      Dump.IsPattern slots.length group.pattern := by
    intro group member
    obtain ⟨entry, _, same⟩ := (exists_group_iff canonical _ _).1 ⟨group, member, rfl⟩
    rw [← same]
    exact BasisState.truncate_is_pattern entry.1 room
  refine ⟨rfl, isPattern, groups_ascending canonical slots.length, ?_, ?_, ?_⟩
  · intro pattern isPattern
    rw [exists_group_iff]
    constructor
    · rintro ⟨entry, member, same⟩
      obtain ⟨source, listed, rfl⟩ := List.mem_map.1 (entries.mem_iff.1 member)
      dsimp only at same
      exact ⟨source.1, stores_of_mem_entries listed,
        (truncate_permute_eq_iff distinct inside source.1 isPattern).1 same⟩
    · rintro ⟨index, ⟨amplitude, found⟩, shown⟩
      have listed := (mem_entries_iff state index amplitude).2 found
      refine ⟨_, entries.mem_iff.2 (List.mem_map_of_mem listed), ?_⟩
      dsimp only
      exact (truncate_permute_eq_iff distinct inside index isPattern).2 shown
  · intro group member
    exact (amplitudes_perm_collected member).trans
      (collected_canonical_perm distinct inside state (isPattern group member))
  · intro group member
    exact sorted_of_mem_groups member

end SparseState

/-! ### Taking dumps -/

namespace Simulator

variable [Scalar R]

/-- The limit on slots does not matter to a dump. -/
theorem dump_outcome_of_sound {before : Simulator R} (sound : before.Sound)
    (qubits : List QubitId) : DumpOutcome qubits before (takeDump qubits before) := by
  have answer := of_unlimited (take_dump_ignores_limit qubits) before
  have outcome := dump_outcome sound.unlimited qubits
  rw [answer]
  generalize takeDump qubits (before.underLimit width) = result at outcome
  cases outcome with
  | refused read =>
      rw [slots_of_under_limit] at read
      exact .refused read
  | empty noQubits => exact .empty noQubits
  | recorded found gathers => exact .recorded found gathers

omit [Scalar R] in
theorem Usable.operands {simulator : Simulator R} {qubits : List QubitId}
    (usable : simulator.Usable qubits) : ∃ slots, simulator.Operands qubits slots := by
  cases read : simulator.slotsOf [] qubits with
  | ok slots => exact ⟨slots, (slots_of_operands simulator qubits slots).1 read⟩
  | error error =>
      exact absurd usable ((slots_of_eq_error_iff qubits error).1 read).not_usable

theorem take_dump_eq {before : Simulator R} (sound : before.Sound) {qubits : List QubitId}
    {first place : Nat} {rest : List Nat} (found : before.Operands qubits (first :: rest))
    {merged : Arena R} {partition : Partition R}
    (gathers : Arena.Gathers before.arena merged first rest place partition) :
    takeDump qubits before = .ok before.dumps.size { before with
      arena := merged
      dumps := before.dumps.push ((partition.state.permute
        (Layout.permutation (Layout.swaps (first :: rest)))).dump (first :: rest).length) } := by
  have read := (slots_of_operands before qubits _).2 found
  have outcome := dump_outcome_of_sound sound qubits
  generalize takeDump qubits before = result at outcome
  cases outcome with
  | refused refused => cases read.symm.trans refused
  | empty noQubits =>
      rw [noQubits] at found
      cases found.length
  | recorded found' gathers' =>
      cases read.symm.trans ((slots_of_operands before qubits _).2 found')
      cases gathers.result.symm.trans gathers'.result
      cases gathers.found.symm.trans gathers'.found
      rfl

/-- However a run went, a dump of different allocated qubits records what the joined partition shows
at their slots, and changes nothing but which slots are joined; dumped again the qubits give the
same record. -/
theorem dump_records_view [Std.TransCmp (Scalar.totalOrder : R → R → Ordering)]
    {simulator : Simulator R} (arises : simulator.Arises) {qubits : List QubitId}
    (nonempty : qubits ≠ []) (usable : simulator.Usable qubits) :
    ∃ (first place : Nat) (rest : List Nat) (merged : Arena R) (partition : Partition R)
        (record : Dump R) (after : Simulator R),
      simulator.Operands qubits (first :: rest) ∧
      Arena.Gathers simulator.arena merged first rest place partition ∧
      record.Views partition.state (first :: rest) ∧
      after = { simulator with arena := merged, dumps := simulator.dumps.push record } ∧
      takeDump qubits simulator = .ok simulator.dumps.size after ∧
      takeDump qubits after =
        .ok after.dumps.size { after with dumps := after.dumps.push record } := by
  have sound := arises_sound arises
  obtain ⟨slots, found⟩ := usable.operands
  cases slots with
  | nil => exact absurd (List.eq_nil_of_length_eq_zero found.length.symm) nonempty
  | cons first rest =>
      have allocated : ∀ slot ∈ first :: rest, simulator.Allocated slot :=
        fun slot member => found.allocated member
      have unlimited : (simulator.underLimit width).Operands qubits (first :: rest) := found
      have distinct := unlimited.distinct sound.unlimited
      have inside : ∀ slot ∈ first :: rest, slot < width :=
        fun slot member => sound.unlimited.allocated_lt_width (allocated slot member)
      obtain ⟨place, merged, partition, gathers⟩ :=
        gather_allocated sound.unlimited first rest allocated
      have here := take_dump_eq sound found gathers
      have soundAfter := sound_perform sound (.dump qubits)
      rw [Operation.perform, Operation.leaves_discard, here] at soundAfter
      refine ⟨first, place, rest, merged, partition, _, _, found, gathers,
        SparseState.dump_views distinct inside partition.state, rfl, here, ?_⟩
      exact take_dump_eq soundAfter found gathers.again

/-- The register that was incremented to 1, dumped from its last qubit on. -/
theorem incremented_dumped :
    incremented.Arises ∧ [(⟨1⟩ : QubitId), ⟨0⟩] ≠ [] ∧ incremented.Usable [⟨1⟩, ⟨0⟩] ∧
      ∃ (record : Dump Float) (state : SparseState Float) (after : Simulator Float),
        record.Views state [1, 0] ∧ takeDump [⟨1⟩, ⟨0⟩] incremented = .ok 0 after ∧
          after.dumps = #[record] := by
  have arises : incremented.Arises :=
    .performed (.performed (.performed
      (.seeded (.started (fun _ => none) "plugins" "dumps" 7) 7) _) _) _
  have nonempty : [(⟨1⟩ : QubitId), ⟨0⟩] ≠ [] := List.cons_ne_nil _ _
  have usable : incremented.Usable [⟨1⟩, ⟨0⟩] := ⟨by decide, by decide +kernel⟩
  obtain ⟨first, place, rest, merged, partition, record, after, found, _, views, same, taken, _⟩ :=
    dump_records_view arises nonempty usable
  have slots : incremented.Operands [⟨1⟩, ⟨0⟩] [1, 0] := ⟨by decide, by decide +kernel⟩
  have listed : first :: rest = [1, 0] :=
    List.map_injective_iff.2 (Option.some_injective Nat) (found.2.symm.trans slots.2)
  have none : incremented.dumps = #[] := by rfl
  rw [listed] at views
  rw [none] at taken
  refine ⟨arises, nonempty, usable, record, partition.state, after, views, taken, ?_⟩
  rw [same, none]
  rfl

end Simulator

end SparseQuantum
