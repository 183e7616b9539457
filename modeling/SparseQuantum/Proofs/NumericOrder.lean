import Mathlib
import SparseQuantum.Proofs.GroupedAmplitudes

/-!
# Basis states as numbers

A basis state encodes a number in which each 1 counts the power of two of its position. Words are
compared from the highest one down, which is the order of these numbers, so the entries of a state
stand in ascending order of them. The words that truncating keeps have the bits of the number below
the size and no others, whether or not the size ends within a word.
-/

namespace SparseQuantum

set_option autoImplicit false

namespace BasisState

/-! ### The number of a basis state -/

/-- Each 1 counts the power of two of its position. -/
def number (index : BasisState) : Nat :=
  ∑ position ∈ Finset.range width with index.isOne position, 2 ^ position

theorem sum_of_bits (value count : Nat) :
    ∑ position ∈ Finset.range count with value.testBit position, 2 ^ position =
      value % 2 ^ count := by
  induction count with
  | zero => simp [Nat.mod_one]
  | succ count induction =>
      have bit : (if value.testBit count = true then 2 ^ count else 0) =
          2 ^ count * (value / 2 ^ count % 2) := by
        rw [← Nat.toNat_testBit]
        cases value.testBit count <;> simp
      rw [Finset.sum_filter] at induction ⊢
      rw [Finset.sum_range_succ, induction, bit, Nat.mod_pow_succ]

theorem sum_below (index : BasisState) (count : Nat) :
    ∑ position ∈ Finset.range (wordBits * count) with index.isOne position, 2 ^ position =
      index.valueBelow count := by
  have same : ∀ position ∈ Finset.range (wordBits * count),
      (index.isOne position = true ↔ (index.valueBelow count).testBit position = true) := by
    intro position member
    rw [test_bit_value_below, decide_eq_true (Finset.mem_range.1 member), Bool.true_and]
  rw [Finset.filter_congr same, sum_of_bits]
  exact Nat.mod_eq_of_lt (index.value_below_lt count)

/-- The words spell the number. -/
theorem number_eq_value (index : BasisState) : index.number = index.value :=
  index.sum_below wordCount

theorem compare_eq_compare_number (left right : BasisState) :
    compare left right = compare left.number right.number := by
  rw [compare_eq, number_eq_value, number_eq_value]

theorem compare_eq_eq_iff (left right : BasisState) :
    compare left right = .eq ↔
      ∀ position, position < width → left.isOne position = right.isOne position := by
  constructor
  · intro same position _
    rw [Std.LawfulEqOrd.eq_of_compare same]
  · intro agree
    rw [ext_is_one agree]
    exact Std.ReflOrd.compare_self

end BasisState

/-! ### Entries in order -/

variable {R : Type}

namespace SparseState

theorem entries_ascending (state : SparseState R) :
    state.entries.Pairwise fun first second => first.1.number < second.1.number := by
  apply state.amplitudes.ordered_keys_toList.imp
  intro first second below
  rw [BasisState.compare_eq_compare_number] at below
  exact Nat.compare_eq_lt.1 below

/-- Basis states are ordered as their numbers, and so are the entries of a state, in which each
stored amplitude stands once. -/
theorem ordered_as_numbers :
    (∀ left right : BasisState, compare left right = compare left.number right.number ∧
      (compare left right = .eq ↔
        ∀ position, position < width → left.isOne position = right.isOne position)) ∧
    ∀ state : SparseState R,
      (state.entries.Pairwise fun first second => first.1.number < second.1.number) ∧
      (∀ index amplitude,
        (index, amplitude) ∈ state.entries ↔ state.get? index = some amplitude) ∧
      (state.entries.map Prod.fst).Nodup := by
  refine ⟨fun left right => ⟨BasisState.compare_eq_compare_number left right,
    BasisState.compare_eq_eq_iff left right⟩, fun state => ⟨state.entries_ascending,
    state.mem_entries_iff, ?_⟩⟩
  exact List.pairwise_map.2 state.entries_distinct

end SparseState

/-! ### The words that truncating keeps -/

namespace BasisState

theorem bit_at_truncate_min (index : BasisState) (size position : Nat) :
    Dump.bitAt (index.truncate size) position =
      (decide (position < min size width) && index.isOne position) := by
  rw [← test_bit_low_eq, test_bit_low]

/-- Positions beyond the width hold no 1, so a larger size asks for no more than the width. -/
theorem agree_below_iff (left right : BasisState) (size : Nat) :
    (∀ position, position < size → left.isOne position = right.isOne position) ↔
      ∀ position, position < min size width → left.isOne position = right.isOne position := by
  constructor
  · intro same position below
    exact same position (Nat.lt_min.1 below).1
  · intro same position below
    by_cases inside : position < width
    · exact same position (Nat.lt_min.2 ⟨below, inside⟩)
    · rw [is_one_eq_false_of_width_le _ (Nat.le_of_not_lt inside),
        is_one_eq_false_of_width_le _ (Nat.le_of_not_lt inside)]

theorem truncate_eq_iff_agree (left right : BasisState) (size : Nat) :
    left.truncate size = right.truncate size ↔
      ∀ position, position < size → left.isOne position = right.isOne position := by
  rw [agree_below_iff, truncate_min, truncate_eq_iff left (Nat.min_le_right size width)
    (right.truncate_min_is_pattern size)]
  refine forall₂_congr fun position below => ?_
  rw [bit_at_truncate_min, decide_eq_true below, Bool.true_and]

/-- The words of `size` positions have their bits and no others, so they are the same for two basis
states exactly if these agree below the size. -/
theorem truncate_faithful (index : BasisState) (size : Nat) :
    (index.truncate size).length = min size width ⌈/⌉ wordBits ∧
    (∀ position, position < min size width →
      Dump.bitAt (index.truncate size) position = index.isOne position) ∧
    (∀ position, min size width ≤ position →
      Dump.bitAt (index.truncate size) position = false) ∧
    (∀ other : BasisState, index.truncate size = other.truncate size ↔
      ∀ position, position < size → index.isOne position = other.isOne position) ∧
    (width ≤ size → ∀ other : BasisState,
      index.truncate size = other.truncate size ↔ index = other) := by
  refine ⟨?_, ?_, ?_, fun other => index.truncate_eq_iff_agree other size, ?_⟩
  · rw [(index.truncate_min_is_pattern size).length_eq, Nat.ceilDiv_eq_add_pred_div]
    rfl
  · intro position below
    rw [bit_at_truncate_min, decide_eq_true below, Bool.true_and]
  · intro position above
    rw [bit_at_truncate_min, decide_eq_false (Nat.not_lt_of_le above), Bool.false_and]
  · intro wide other
    rw [truncate_eq_iff_agree]
    constructor
    · intro same
      exact ext_is_one fun position inside => same position (Nat.lt_of_lt_of_le inside wide)
    · rintro rfl position _
      rfl

/-- A size may end within a word, at its end, or beyond the width. -/
example : (ofOnes [0, 2, 64, 66]).truncate 65 = [5, 1] ∧
    (ofOnes [0, 2, 64, 66]).truncate 64 = [5] ∧ ((ofOnes [1023]).truncate 2000).length = 16 := by
  decide +kernel

end BasisState

end SparseQuantum
