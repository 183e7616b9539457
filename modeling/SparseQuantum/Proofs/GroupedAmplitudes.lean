import Mathlib
import SparseQuantum.Proofs.DumpViews

/-!
# Dumps as partitions of the amplitudes

The lowest positions of a basis state spell a number, and a dump of so many positions puts each
amplitude into exactly one group, that of the number. Groups are looked up by a single word: what is
found are the amplitudes of the basis states whose number is that of the word, however many words a
pattern has and however many of them the dump asked for beyond the width. A probability is looked up
in the same group.
-/

namespace SparseQuantum

set_option autoImplicit false

namespace BasisState

/-! ### The number that positions spell -/

theorem test_bit_value_below (index : BasisState) (count position : Nat) :
    (index.valueBelow count).testBit position =
      (decide (position < wordBits * count) && index.isOne position) := by
  induction count with
  | zero => simp [valueBelow]
  | succ count induction =>
      have split : index.valueBelow (count + 1) =
          2 ^ (wordBits * count) * (index.word count).toNat + index.valueBelow count := by
        rw [valueBelow, Nat.add_comm, Nat.mul_comm]
        rfl
      rw [split, Nat.testBit_two_pow_mul_add _ (index.value_below_lt count), induction,
        BitVec.testBit_toNat]
      by_cases lower : position < wordBits * count
      · rw [if_pos lower, decide_eq_true lower,
          decide_eq_true (Nat.lt_of_lt_of_le lower (Nat.mul_le_mul_left _ (Nat.le_succ count)))]
      · rw [if_neg lower]
        by_cases here : position < wordBits * (count + 1)
        · have word : position / wordBits = count := by
            rw [Nat.div_eq_iff (by decide)]
            simp only [wordBits] at *
            omega
          have place : position - wordBits * count = position % wordBits := by
            rw [← word]
            exact (Nat.mod_eq_sub_mul_div).symm
          rw [decide_eq_true here, Bool.true_and, isOne, word, place]
        · rw [decide_eq_false here, Bool.false_and, BitVec.getLsbD_of_ge]
          simp only [wordBits] at *
          omega

theorem test_bit_value (index : BasisState) (position : Nat) :
    index.value.testBit position = index.isOne position := by
  rw [value, test_bit_value_below]
  by_cases inside : position < width
  · rw [decide_eq_true (show position < wordBits * wordCount from inside), Bool.true_and]
  · rw [is_one_eq_false_of_width_le index (Nat.le_of_not_lt inside), Bool.and_false]

def low (index : BasisState) (size : Nat) : Nat := index.value % 2 ^ min size width

theorem test_bit_low (index : BasisState) (size position : Nat) :
    (index.low size).testBit position =
      (decide (position < min size width) && index.isOne position) := by
  rw [low, Nat.testBit_mod_two_pow, test_bit_value]

theorem truncate_min (index : BasisState) (size : Nat) :
    index.truncate size = index.truncate (min size width) := by
  rw [truncate, truncate, Nat.min_assoc, Nat.min_self]

theorem test_bit_low_eq (index : BasisState) (size position : Nat) :
    (index.low size).testBit position = Dump.bitAt (index.truncate size) position := by
  rw [test_bit_low, truncate_min, bit_at_truncate index (Nat.min_le_right size width)]

theorem truncate_min_is_pattern (index : BasisState) (size : Nat) :
    Dump.IsPattern (min size width) (index.truncate size) := by
  rw [truncate_min]
  exact truncate_is_pattern index (Nat.min_le_right size width)

theorem truncate_eq_truncate_iff (left right : BasisState) (size : Nat) :
    left.truncate size = right.truncate size ↔ left.low size = right.low size := by
  constructor
  · intro same
    apply Nat.eq_of_testBit_eq
    intro position
    rw [test_bit_low_eq, test_bit_low_eq, same]
  · intro same
    apply (truncate_min_is_pattern left size).ext (truncate_min_is_pattern right size)
    intro position _
    rw [← test_bit_low_eq, ← test_bit_low_eq, same]

end BasisState

/-! ### Looking up a group -/

namespace Dump

theorem bit_at_nil (position : Nat) : bitAt [] position = false := BitVec.getLsbD_zero

theorem bit_at_cons (first : Word) (rest : List Word) (position : Nat) :
    bitAt (first :: rest) position =
      if position < wordBits then first.getLsbD position else bitAt rest (position - wordBits) := by
  split_ifs with here
  · rw [bitAt, Nat.div_eq_of_lt here, Nat.mod_eq_of_lt here]
    rfl
  · have above : wordBits ≤ position := Nat.le_of_not_lt here
    rw [bitAt, bitAt, Nat.div_eq_sub_div (by decide) above, Nat.mod_eq_sub_mod above]
    rfl

theorem all_zero_iff (words : List Word) :
    words.all (· == 0) = true ↔ ∀ position, bitAt words position = false := by
  induction words with
  | nil => exact iff_of_true rfl bit_at_nil
  | cons first rest induction =>
      rw [List.all_cons, Bool.and_eq_true, beq_iff_eq, induction]
      constructor
      · rintro ⟨rfl, others⟩ position
        rw [bit_at_cons]
        split_ifs
        · exact BitVec.getLsbD_zero
        · exact others _
      · intro clear
        constructor
        · apply BitVec.eq_of_getLsbD_eq
          intro bit inside
          have here := clear bit
          rw [bit_at_cons, if_pos inside] at here
          exact here.trans BitVec.getLsbD_zero.symm
        · intro position
          have there := clear (position + wordBits)
          rwa [bit_at_cons, if_neg (Nat.not_lt.2 (Nat.le_add_left _ _)),
            Nat.add_sub_cancel] at there

end Dump

variable {R : Type}

namespace DumpGroup

/-- A group is at a word if its pattern has the bits of the word, and none further up. -/
theorem is_at_iff (group : DumpGroup R) (low : Word) :
    group.isAt low = true ↔
      ∀ position, Dump.bitAt group.pattern position = low.getLsbD position := by
  rcases group with ⟨pattern, amplitudes⟩
  cases pattern with
  | nil =>
      rw [isAt, beq_iff_eq]
      constructor
      · rintro rfl position
        exact (Dump.bit_at_nil position).trans BitVec.getLsbD_zero.symm
      · intro bits
        apply BitVec.eq_of_getLsbD_eq
        intro bit _
        rw [← bits bit]
        exact (Dump.bit_at_nil bit).trans BitVec.getLsbD_zero.symm
  | cons first rest =>
      rw [isAt, Bool.and_eq_true, beq_iff_eq, Dump.all_zero_iff]
      constructor
      · rintro ⟨rfl, clear⟩ position
        rw [Dump.bit_at_cons]
        split_ifs with here
        · rfl
        · rw [clear, BitVec.getLsbD_of_ge _ _ (Nat.le_of_not_lt here)]
      · intro bits
        constructor
        · apply BitVec.eq_of_getLsbD_eq
          intro bit inside
          rw [← bits bit, Dump.bit_at_cons, if_pos inside]
        · intro position
          have above := bits (position + wordBits)
          rwa [Dump.bit_at_cons, if_neg (Nat.not_lt.2 (Nat.le_add_left _ _)), Nat.add_sub_cancel,
            BitVec.getLsbD_of_ge _ _ (Nat.le_add_left _ _)] at above

theorem is_at_low_iff {group : DumpGroup R} {index : BasisState} {size : Nat}
    (same : index.truncate size = group.pattern) (low : Word) :
    group.isAt low = true ↔ index.low size = low.toNat := by
  rw [is_at_iff, ← same]
  constructor
  · intro bits
    apply Nat.eq_of_testBit_eq
    intro position
    rw [BasisState.test_bit_low_eq, bits, BitVec.testBit_toNat]
  · intro number position
    rw [← BasisState.test_bit_low_eq, number, BitVec.testBit_toNat]

end DumpGroup

namespace SparseState

theorem collected_all_perm (entries : List (BasisState × Amplitude R)) (size : Nat)
    {patterns : List (List Word)} (distinct : patterns.Nodup)
    (covered : ∀ entry ∈ entries, entry.1.truncate size ∈ patterns) :
    (patterns.flatMap (collected entries size)).Perm (entries.map (·.2)) := by
  induction entries with
  | nil => exact List.Perm.of_eq (List.flatMap_eq_nil_iff.2 fun _ _ => rfl)
  | cons entry rest induction =>
      let pattern := entry.1.truncate size
      have listed : patterns.Perm (pattern :: patterns.erase pattern) :=
        List.perm_cons_erase (covered entry List.mem_cons_self)
      have elsewhere : ∀ other ∈ patterns.erase pattern,
          collected (entry :: rest) size other = collected rest size other := by
        intro other member
        rw [collected_cons, if_neg]
        rintro rfl
        exact distinct.not_mem_erase member
      have others := induction fun other member => covered other (List.mem_cons_of_mem _ member)
      calc
        (patterns.flatMap (collected (entry :: rest) size)).Perm
            ((pattern :: patterns.erase pattern).flatMap (collected (entry :: rest) size)) :=
          listed.flatMap_right _
        _ = entry.2 :: (pattern :: patterns.erase pattern).flatMap (collected rest size) := by
          rw [List.flatMap_cons, List.flatMap_cons, List.flatMap_congr elsewhere, collected_cons,
            if_pos rfl, List.cons_append]
        List.Perm _ (entry.2 :: patterns.flatMap (collected rest size)) :=
          (listed.flatMap_right _).symm.cons entry.2
        List.Perm _ (entry.2 :: rest.map (·.2)) := others.cons entry.2

/-- The amplitudes of the basis states whose lowest positions spell the number. -/
def amplitudesAt (state : SparseState R) (size number : Nat) : List (Amplitude R) :=
  (state.entries.filter fun entry => entry.1.low size = number).map (·.2)

variable [Scalar R]

/-- The groups list each amplitude once. -/
theorem dump_amplitudes_perm (state : SparseState R) (size : Nat) :
    ((state.dump size).groups.flatMap (·.amplitudes)).Perm (state.entries.map (·.2)) := by
  let groups := (state.dump size).groups
  have distinct : (groups.map (·.pattern)).Nodup := by
    refine List.pairwise_map.2 ((groups_ascending state size).imp ?_)
    intro left right below same
    exact List.lt_irrefl _ (same ▸ below)
  have covered : ∀ entry ∈ state.entries, entry.1.truncate size ∈ groups.map (·.pattern) :=
    fun entry member => List.mem_map.2 ((exists_group_iff state size _).2 ⟨entry, member, rfl⟩)
  calc
    (groups.flatMap (·.amplitudes)).Perm
        (groups.flatMap fun group => collected state.entries size group.pattern) :=
      List.Perm.flatMap_left _ fun _ member => amplitudes_perm_collected member
    _ = (groups.map (·.pattern)).flatMap (collected state.entries size) :=
      (List.flatMap_map _ _ _).symm
    List.Perm _ (state.entries.map (·.2)) := collected_all_perm _ size distinct covered

theorem amplitudes_perm_of_is_at {state : SparseState R} {size : Nat} {group : DumpGroup R}
    (member : group ∈ (state.dump size).groups) {low : Word} (here : group.isAt low = true) :
    group.amplitudes.Perm (state.amplitudesAt size low.toNat) := by
  obtain ⟨entry, _, same⟩ := (exists_group_iff state size _).1 ⟨group, member, rfl⟩
  have number := (DumpGroup.is_at_low_iff same low).1 here
  have collects : collected state.entries size group.pattern =
      state.amplitudesAt size low.toNat := by
    rw [collected, amplitudesAt, ← same, ← number]
    simp only [BasisState.truncate_eq_truncate_iff]
  rw [← collects]
  exact amplitudes_perm_collected member

theorem exists_group_at_iff (state : SparseState R) (size : Nat) (low : Word) :
    (∃ group ∈ (state.dump size).groups, group.isAt low = true) ↔
      ∃ index, state.Stores index ∧ index.low size = low.toNat := by
  constructor
  · rintro ⟨group, member, here⟩
    obtain ⟨entry, source, same⟩ := (exists_group_iff state size _).1 ⟨group, member, rfl⟩
    exact ⟨entry.1, stores_of_mem_entries source, (DumpGroup.is_at_low_iff same low).1 here⟩
  · rintro ⟨index, ⟨amplitude, found⟩, number⟩
    have source := (mem_entries_iff state index amplitude).2 found
    obtain ⟨group, member, same⟩ := (exists_group_iff state size _).2 ⟨_, source, rfl⟩
    exact ⟨group, member, (DumpGroup.is_at_low_iff same.symm low).2 number⟩

end SparseState

/-! ### The partition -/

variable [Scalar R]

/-- The record puts each amplitude of the state into one group, that of its lowest positions. -/
structure Dump.Partitions (record : Dump R) (state : SparseState R) (size : Nat) : Prop where
  qubits_eq : record.qubits = size
  pattern : ∀ group ∈ record.groups, IsPattern (min size width) group.pattern
  ascending : record.groups.Pairwise fun left right => left.pattern < right.pattern
  amplitudes_perm : (record.groups.flatMap (·.amplitudes)).Perm (state.entries.map (·.2))
  nonempty : ∀ group ∈ record.groups, group.amplitudes ≠ []
  sorted : ∀ group ∈ record.groups, group.amplitudes.Pairwise
    fun left right => (left.totalOrder right).isLE = true

/-- Looked up at a word, the record has the amplitudes of the basis states with its number, and
their probability. -/
structure Dump.Finds (record : Dump R) (state : SparseState R) (size : Nat) (low : Word) :
    Prop where
  found_iff : (∃ amplitudes, record.amplitudes? low = some amplitudes) ↔
    ∃ index, state.Stores index ∧ index.low size = low.toNat
  found : ∀ amplitudes, record.amplitudes? low = some amplitudes →
    amplitudes.Perm (state.amplitudesAt size low.toNat) ∧
      (amplitudes.Pairwise fun left right => (left.totalOrder right).isLE = true) ∧
      record.probability low = SparseState.total (amplitudes.map Amplitude.normSq)
  absent : record.amplitudes? low = none → record.probability low = 0

namespace SparseState

variable [Std.TransCmp (Scalar.totalOrder : R → R → Ordering)]

theorem dump_partitions (state : SparseState R) (size : Nat) :
    (state.dump size).Partitions state size where
  qubits_eq := rfl
  pattern group member := by
    obtain ⟨entry, _, same⟩ := (exists_group_iff state size _).1 ⟨group, member, rfl⟩
    rw [← same]
    exact entry.1.truncate_min_is_pattern size
  ascending := groups_ascending state size
  amplitudes_perm := dump_amplitudes_perm state size
  nonempty group member := by
    obtain ⟨something, sorted⟩ := (mem_groups_iff state size group).1 member
    rw [sorted, ← List.length_pos_iff, List.length_mergeSort]
    exact List.length_pos_iff.2 something
  sorted _ member := sorted_of_mem_groups member

theorem dump_finds (state : SparseState R) (size : Nat) (low : Word) :
    (state.dump size).Finds state size low := by
  cases lookup : (state.dump size).group? low with
  | none =>
      have absent : (state.dump size).amplitudes? low = none := by
        rw [Dump.amplitudes?, lookup, Option.map_none]
      refine ⟨?_, ?_, ?_⟩
      · rw [← exists_group_at_iff, absent]
        refine iff_of_false (by simp) ?_
        rintro ⟨group, member, here⟩
        exact List.find?_eq_none.1 lookup group member here
      · intro amplitudes found
        cases absent.symm.trans found
      · intro _
        rw [Dump.probability, lookup]
  | some group =>
      have member := List.mem_of_find?_eq_some lookup
      have here := List.find?_some lookup
      have present : (state.dump size).amplitudes? low = some group.amplitudes := by
        rw [Dump.amplitudes?, lookup, Option.map_some]
      refine ⟨?_, ?_, ?_⟩
      · rw [← exists_group_at_iff]
        exact iff_of_true ⟨_, present⟩ ⟨group, member, here⟩
      · intro amplitudes found
        cases present.symm.trans found
        refine ⟨amplitudes_perm_of_is_at member here, sorted_of_mem_groups member, ?_⟩
        rw [Dump.probability, lookup]
        rfl
      · intro absent
        cases present.symm.trans absent

/-- A dump of any size puts each amplitude into the group of its lowest positions, in strictly
ascending order of the patterns and sorted within each group, and a word looks up the amplitudes of
the basis states with its number. -/
theorem dump_partitions_amplitudes (state : SparseState R) (size : Nat) :
    (state.dump size).Partitions state size ∧
      ∀ low : Word, (state.dump size).Finds state size low :=
  ⟨dump_partitions state size, dump_finds state size⟩

def acrossWords : SparseState Float :=
  ⟨.ofEntries [(.ofOnes [0], .one), (.ofOnes [0, 70], .one), (.ofOnes [64], .one)]⟩

theorem across_words_partitioned :
    Std.TransCmp (Scalar.totalOrder : Float → Float → Ordering) ∧
    (acrossWords.dump 65).Partitions acrossWords 65 ∧
    (∃ amplitudes, (acrossWords.dump 65).amplitudes? 1 = some amplitudes ∧
      amplitudes.length = 2) ∧
    (acrossWords.dump 65).amplitudes? 0 = none := by
  have entries : acrossWords.entries.Perm
      [(.ofOnes [0], .one), (.ofOnes [0, 70], .one), (.ofOnes [64], .one)] :=
    Amplitudes.entries_perm (by rw [Amplitudes.Distinct]; decide +kernel)
  obtain ⟨partitions, finds⟩ := dump_partitions_amplitudes acrossWords 65
  refine ⟨inferInstance, partitions, ?_, ?_⟩
  · have stored : acrossWords.Stores (.ofOnes [0]) :=
      stores_of_mem_entries (entries.mem_iff.2 List.mem_cons_self)
    obtain ⟨amplitudes, found⟩ := (finds 1).found_iff.2 ⟨_, stored, by decide +kernel⟩
    refine ⟨amplitudes, found, ?_⟩
    rw [((finds 1).found amplitudes found).1.length_eq, amplitudesAt,
      ((entries.filter _).map _).length_eq]
    decide +kernel
  · rw [Option.eq_none_iff_forall_ne_some]
    intro amplitudes found
    obtain ⟨index, ⟨amplitude, stored⟩, number⟩ := (finds 0).found_iff.1 ⟨amplitudes, found⟩
    have source := (mem_entries_iff acrossWords index amplitude).2 stored
    have member : index ∈ [.ofOnes [0], .ofOnes [0, 70], .ofOnes [64]] :=
      (entries.map Prod.fst).mem_iff.1 (List.mem_map.2 ⟨_, source, rfl⟩)
    have positive : ∀ index ∈ [BasisState.ofOnes [0], .ofOnes [0, 70], .ofOnes [64]],
        index.low 65 ≠ 0 := by decide +kernel
    exact positive index member number

end SparseState

end SparseQuantum
