import SparseQuantum.BasisState

/-!
Basis states position by position. Each operation is described by the values that its result has at
every position, and two states that agree at all positions below the width are equal
(`ext_is_one`). Statements about basis states need nothing else.
-/

namespace SparseQuantum.BasisState

/-! ### Words -/

theorem word_eq_zero_of_le (state : BasisState) {index : Nat} (outside : wordCount ≤ index) :
    state.word index = 0 := by
  simp [word, Vector.getElem?_eq_none outside]

theorem word_update_word (state : BasisState) (place index : Nat) (change : Word → Word) :
    (state.updateWord place change).word index =
      if place = index ∧ index < wordCount then change (state.word index)
      else state.word index := by
  unfold updateWord word
  rw [Vector.getElem?_setIfInBounds]
  by_cases same : place = index
  · subst same
    by_cases inside : place < wordCount
    · simp [inside]
    · simp [inside]
  · simp [same]

theorem word_zero (index : Nat) : zero.word index = 0 := by
  by_cases inside : index < wordCount
  · simp [word, zero, inside]
  · exact word_eq_zero_of_le zero (Nat.le_of_not_lt inside)

theorem word_union (left right : BasisState) (index : Nat) :
    (left.union right).word index = left.word index ||| right.word index := by
  by_cases inside : index < wordCount
  · simp [word, union, inside]
  · have outside := Nat.le_of_not_lt inside
    simp [word_eq_zero_of_le, outside]

/-! ### Positions -/

theorem div_lt_word_count {position : Nat} :
    position / wordBits < wordCount ↔ position < width := by
  simp only [wordBits, wordCount, width]
  omega

theorem is_one_eq_false_of_width_le (state : BasisState) {position : Nat}
    (outside : width ≤ position) :
    state.isOne position = false := by
  have above : wordCount ≤ position / wordBits := by
    simp only [wordBits, wordCount, width] at *
    omega
  simp [isOne, word_eq_zero_of_le state above]

theorem eq_of_same_bit {first second : Nat} (words : first / wordBits = second / wordBits)
    (bits : first % wordBits = second % wordBits) : first = second := by
  rw [← Nat.div_add_mod first wordBits, words, bits, Nat.div_add_mod]

@[simp] theorem is_one_zero (position : Nat) : zero.isOne position = false := by
  simp [isOne, word_zero]

@[simp] theorem is_one_union (left right : BasisState) (position : Nat) :
    (left.union right).isOne position = (left.isOne position || right.isOne position) := by
  simp [isOne, word_union]

theorem bit_of_word_mask (place position : Nat) :
    (wordMask place).getLsbD (position % wordBits) =
      decide (place % wordBits = position % wordBits) := by
  have inside : position % wordBits < wordBits := Nat.mod_lt _ (by decide)
  simp [wordMask, inside, eq_comm]

theorem is_one_flip (state : BasisState) (place position : Nat) :
    (state.flip place).isOne position =
      (state.isOne position ^^ decide (place = position ∧ position < width)) := by
  unfold isOne flip
  simp only [word_update_word, div_lt_word_count]
  by_cases words : place / wordBits = position / wordBits
  · by_cases inside : position < width
    · have same : (place % wordBits = position % wordBits) ↔ place = position :=
        ⟨eq_of_same_bit words, fun same => by rw [same]⟩
      simp [words, inside, bit_of_word_mask, same]
    · simp [inside]
  · have different : place ≠ position := fun same => words (by rw [same])
    simp [words, different]

theorem is_one_set (state : BasisState) (place : Nat) (value : Bool) (position : Nat) :
    (state.set place value).isOne position =
      if place = position ∧ position < width then value else state.isOne position := by
  unfold isOne set
  simp only [word_update_word, div_lt_word_count]
  by_cases words : place / wordBits = position / wordBits
  · by_cases inside : position < width
    · have same : (place % wordBits = position % wordBits) ↔ place = position :=
        ⟨eq_of_same_bit words, fun same => by rw [same]⟩
      have bound : position % wordBits < wordBits := Nat.mod_lt _ (by decide)
      by_cases here : place = position
      · subst here
        cases value <;> simp [inside, bound, bit_of_word_mask]
      · have clear : (wordMask place).getLsbD (position % wordBits) = false := by
          simp [bit_of_word_mask, same, here]
        cases value <;>
          simp only [words, inside, here, bound, clear, BitVec.getLsbD_or, BitVec.getLsbD_and,
            BitVec.getLsbD_not, and_self, false_and, if_true, if_false, decide_true,
            Bool.not_false, Bool.and_true, Bool.or_false, Bool.false_eq_true]
    · simp [inside]
  · have different : place ≠ position := fun same => words (by rw [same])
    simp [words, different]

theorem is_one_swap (state : BasisState) {first second : Nat} (firstInside : first < width)
    (secondInside : second < width) (position : Nat) :
    (state.swap first second).isOne position =
      state.isOne (if position = first then second else if position = second then first
        else position) := by
  unfold swap
  by_cases atFirst : position = first
  · subst atFirst
    by_cases same : position = second
    · subst same
      simp
    · cases one : state.isOne position <;> cases two : state.isOne second <;>
        simp [is_one_flip, one, two, firstInside, Ne.symm same]
  · by_cases atSecond : position = second
    · subst atSecond
      cases one : state.isOne first <;> cases two : state.isOne position <;>
        simp [is_one_flip, one, two, secondInside, Ne.symm atFirst, atFirst]
    · cases one : state.isOne first <;> cases two : state.isOne second <;>
        simp [is_one_flip, atFirst, atSecond, Ne.symm atFirst, Ne.symm atSecond]

/-- States that agree at every position of the width are equal. -/
theorem ext_is_one {left right : BasisState}
    (agree : ∀ position, position < width → left.isOne position = right.isOne position) :
    left = right := by
  apply ext_word
  intro index inside
  apply BitVec.eq_of_getLsbD_eq
  intro bit below
  have place := agree (wordBits * index + bit) (by
    simp only [wordBits, wordCount, width] at *
    omega)
  have words : (wordBits * index + bit) / wordBits = index := by
    simp only [wordBits] at *
    omega
  have bits : (wordBits * index + bit) % wordBits = bit := by
    simp only [wordBits] at *
    omega
  simpa only [isOne, words, bits] using place

end SparseQuantum.BasisState
