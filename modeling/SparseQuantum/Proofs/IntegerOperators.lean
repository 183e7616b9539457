import Mathlib
import SparseQuantum.Program.Operator

/-!
# Operators as integer arithmetic

What the operators on registers do, said on integers of any size. Sums, differences, products and
left shifts are exact and then reduced to the range of 64 bits; quotients are cut toward zero, and
right shifts round down. Bitwise operators act on the bits that an integer has in two's complement,
where a negative one has infinitely many. The only failures are a division by zero, the one quotient
that is out of range, and a shift by an amount that is no place of a word.
-/

namespace SparseQuantum

set_option autoImplicit false

/-! ### Two's complement -/

namespace TwosComplement

def InRange (value : Int) : Prop := -2 ^ 63 ≤ value ∧ value < 2 ^ 63

instance (value : Int) : Decidable (InRange value) := inferInstanceAs (Decidable (_ ∧ _))

/-- The number in range that differs from `value` by a multiple of 2⁶⁴. -/
def reduced (value : Int) : Int := value.bmod (2 ^ 64)

theorem reduced_eq_iff {value result : Int} :
    reduced value = result ↔ InRange result ∧ 2 ^ 64 ∣ result - value := by
  rw [reduced, Int.bmod_eq_iff (by decide), InRange, and_assoc]
  rfl

theorem reduced_of_in_range {value : Int} (inRange : InRange value) : reduced value = value := by
  rw [reduced_eq_iff, sub_self]
  exact ⟨inRange, dvd_zero _⟩

theorem to_int_in_range (value : Int64) : InRange value.toInt :=
  ⟨value.le_toInt, value.toInt_lt⟩

theorem ext_test_bit {left right : Int} (same : ∀ place, left.testBit place = right.testBit place) :
    left = right := by
  -- Far enough up, a number that is not negative has zeros and a negative one has ones.
  have apart (positive negative : Nat) :
      ¬∀ place, (Int.ofNat positive).testBit place = (Int.negSucc negative).testBit place := by
    intro same
    have high := same (positive + negative)
    have small : positive < 2 ^ (positive + negative) :=
      Nat.lt_of_le_of_lt (Nat.le_add_right _ _) Nat.lt_two_pow_self
    have small' : negative < 2 ^ (positive + negative) :=
      Nat.lt_of_le_of_lt (Nat.le_add_left _ _) Nat.lt_two_pow_self
    change positive.testBit _ = !negative.testBit _ at high
    rw [Nat.testBit_lt_two_pow small, Nat.testBit_lt_two_pow small'] at high
    exact Bool.false_ne_true high
  cases left with
  | ofNat left =>
      cases right with
      | ofNat right => exact congrArg Int.ofNat (Nat.eq_of_testBit_eq same)
      | negSucc right => exact absurd same (apart left right)
  | negSucc left =>
      cases right with
      | ofNat right => exact absurd (fun place => (same place).symm) (apart right left)
      | negSucc right =>
          refine congrArg Int.negSucc (Nat.eq_of_testBit_eq fun place => ?_)
          exact Bool.not_inj (same place)

theorem test_bit_to_int (value : Int64) (place : Nat) :
    value.toInt.testBit place = value.toBitVec.getLsbD (min place 63) := by
  have sign : value.toBitVec.msb = value.toBitVec.getLsbD 63 :=
    BitVec.msb_eq_getLsbD_last value.toBitVec
  change value.toBitVec.toInt.testBit place = _
  rw [BitVec.toInt_eq_msb_cond]
  split_ifs with negative
  · have flipped : (value.toBitVec.toNat : Int) - (2 ^ 64 : Nat) =
        Int.negSucc (~~~value.toBitVec).toNat := by
      have below := value.toBitVec.isLt
      rw [BitVec.toNat_not, Int.negSucc_eq]
      omega
    rw [flipped]
    change (!(~~~value.toBitVec).getLsbD place) = _
    rw [BitVec.getLsbD_not]
    rcases Nat.lt_or_ge place 64 with inside | outside
    · rw [min_eq_left (Nat.le_of_lt_succ inside), decide_eq_true inside, Bool.true_and,
        Bool.not_not]
    · rw [min_eq_right (by omega), ← sign, negative, decide_eq_false (by omega), Bool.false_and]
      rfl
  · change value.toBitVec.getLsbD place = _
    rcases Nat.lt_or_ge place 64 with inside | outside
    · rw [min_eq_left (Nat.le_of_lt_succ inside)]
    · rw [min_eq_right (by omega), ← sign, BitVec.getLsbD_of_ge _ _ outside]
      simpa using negative

end TwosComplement

open TwosComplement

/-! ### The operators on integers -/

namespace BinaryOperator

def shiftedBy (amount : Int) (result : Nat → Int) : Except ArithmeticError Int :=
  if 0 ≤ amount ∧ amount ≤ 63 then .ok (result amount.toNat) else .error .shiftAmount

/-- The operator on integers, with results in range where `left` and `right` are. -/
def onIntegers (operator : BinaryOperator) (left right : Int) : Except ArithmeticError Int :=
  match operator with
  | equal => .ok (if left = right then 1 else 0)
  | notEqual => .ok (if left ≠ right then 1 else 0)
  | greater => .ok (if left > right then 1 else 0)
  | greaterOrEqual => .ok (if left ≥ right then 1 else 0)
  | less => .ok (if left < right then 1 else 0)
  | lessOrEqual => .ok (if left ≤ right then 1 else 0)
  | add => .ok (reduced (left + right))
  | subtract => .ok (reduced (left - right))
  | multiply => .ok (reduced (left * right))
  | divide =>
      if right = 0 then .error .divisionByZero
      else if InRange (left.tdiv right) then .ok (left.tdiv right)
      else .error .quotientTooLarge
  | shiftLeft => shiftedBy right fun places => reduced (left * 2 ^ places)
  | shiftRight => shiftedBy right fun places => left.fdiv (2 ^ places)
  | and => .ok (left.land right)
  | or => .ok (left.lor right)
  | xor => .ok (left.xor right)

end BinaryOperator

namespace UnaryOperator

def onIntegers (operator : UnaryOperator) (value : Int) : Int :=
  match operator with
  | negate => reduced (0 - value)
  | complement => value.lnot

end UnaryOperator

namespace BinaryOperator

theorem to_int_truth {condition onIntegers : Prop} [Decidable condition] [Decidable onIntegers]
    (same : condition ↔ onIntegers) :
    (truth condition).toInt = if onIntegers then 1 else 0 := by
  by_cases holds : condition
  · rw [if_pos (same.1 holds), decide_eq_true holds]
    rfl
  · rw [if_neg fun other => holds (same.2 other), decide_eq_false holds]
    rfl

/-! ### Division -/

/-- Out of range is the quotient of the least number by -1, and no other. -/
theorem quotient_in_range_iff {left right : Int64} :
    InRange (left.toInt.tdiv right.toInt) ↔ ¬(left = Int64.minValue ∧ right = -1) := by
  constructor
  · intro inRange least
    rw [least.1, least.2] at inRange
    revert inRange
    decide
  · intro notLeast
    have exact : (left / right).toInt = left.toInt.tdiv right.toInt := by
      by_cases least : left = Int64.minValue
      · exact Int64.toInt_div_of_ne_right left right fun same => notLeast ⟨least, same⟩
      · exact Int64.toInt_div_of_ne_left left right least
    rw [← exact]
    exact to_int_in_range (left / right)

theorem quotient_on_integers (left right : Int64) :
    (quotient left right).map Int64.toInt = divide.onIntegers left.toInt right.toInt := by
  have zero : right = 0 ↔ right.toInt = 0 := by rw [← Int64.toInt_inj, Int64.toInt_zero]
  rw [quotient, onIntegers]
  by_cases divisor : right = 0
  · rw [if_pos divisor, if_pos (zero.1 divisor)]
    rfl
  · rw [if_neg divisor, if_neg fun same => divisor (zero.2 same)]
    by_cases least : left = Int64.minValue ∧ right = -1
    · rw [if_pos least, if_neg fun inRange => quotient_in_range_iff.1 inRange least]
      rfl
    · have inRange := quotient_in_range_iff.2 least
      rw [if_neg least, if_pos inRange]
      refine congrArg Except.ok ?_
      rw [Int64.toInt_div]
      exact reduced_of_in_range inRange

/-! ### Shifts -/

/-- The amount that a word is shifted by, where it is a place of the word. -/
theorem to_nat_shift_amount {amount : Int64} (inside : 0 ≤ amount.toInt ∧ amount.toInt ≤ 63) :
    (amount.toBitVec.smod 64).toNat = amount.toInt.toNat := by
  have signed : (amount.toBitVec.smod 64).toInt = amount.toInt := by
    rw [BitVec.toInt_smod]
    exact Int.fmod_eq_of_lt inside.1 (Int.lt_of_le_of_lt inside.2 (by decide))
  have below := (amount.toBitVec.smod 64).isLt
  rw [BitVec.toInt_eq_msb_cond] at signed
  split_ifs at signed <;> omega

theorem shifted_on_integers {amount result : Int64} (value : Nat → Int)
    (same : 0 ≤ amount.toInt ∧ amount.toInt ≤ 63 → result.toInt = value amount.toInt.toNat) :
    (shifted amount result).map Int64.toInt = shiftedBy amount.toInt value := by
  have inside : 0 ≤ amount ∧ amount < 64 ↔ 0 ≤ amount.toInt ∧ amount.toInt ≤ 63 := by
    rw [Int64.le_iff_toInt_le, Int64.lt_iff_toInt_lt]
    exact and_congr_right fun _ => Int.le_sub_one_iff.symm
  rw [shifted, shiftedBy]
  by_cases place : 0 ≤ amount.toInt ∧ amount.toInt ≤ 63
  · rw [if_pos (inside.2 place), if_pos place, ← same place]
    rfl
  · rw [if_neg fun accepted => place (inside.1 accepted), if_neg place]
    rfl

theorem to_int_shift_left (left : Int64) {amount : Int64}
    (inside : 0 ≤ amount.toInt ∧ amount.toInt ≤ 63) :
    (left <<< amount).toInt = reduced (left.toInt * 2 ^ amount.toInt.toNat) := by
  change (left <<< amount).toBitVec.toInt = (left.toBitVec.toInt * _).bmod _
  rw [Int64.toBitVec_shiftLeft, BitVec.shiftLeft_eq', to_nat_shift_amount inside,
    BitVec.toInt_shiftLeft, Nat.shiftLeft_eq, BitVec.toInt_eq_toNat_bmod, Int.bmod_mul_bmod]
  push_cast
  rfl

theorem to_int_shift_right (left : Int64) {amount : Int64}
    (inside : 0 ≤ amount.toInt ∧ amount.toInt ≤ 63) :
    (left >>> amount).toInt = left.toInt.fdiv (2 ^ amount.toInt.toNat) := by
  change (left >>> amount).toBitVec.toInt = _
  rw [Int64.toBitVec_shiftRight, BitVec.toInt_sshiftRight', to_nat_shift_amount inside,
    Int.shiftRight_eq_div_pow, Int.fdiv_eq_ediv_of_nonneg _ (by positivity)]
  push_cast
  rfl

/-! ### All operators -/

theorem on_integers (operator : BinaryOperator) (left right : Int64) :
    (operator.apply left right).map Int64.toInt =
      operator.onIntegers left.toInt right.toInt := by
  cases operator with
  | equal => exact congrArg Except.ok (to_int_truth Int64.toInt_inj.symm)
  | notEqual => exact congrArg Except.ok (to_int_truth Int64.toInt_inj.not.symm)
  | greater | less => exact congrArg Except.ok (to_int_truth Int64.lt_iff_toInt_lt)
  | greaterOrEqual | lessOrEqual => exact congrArg Except.ok (to_int_truth Int64.le_iff_toInt_le)
  | add => exact congrArg Except.ok (Int64.toInt_add left right)
  | subtract => exact congrArg Except.ok (Int64.toInt_sub left right)
  | multiply => exact congrArg Except.ok (Int64.toInt_mul left right)
  | divide => exact quotient_on_integers left right
  | shiftLeft =>
      refine shifted_on_integers (fun places => reduced (left.toInt * 2 ^ places)) fun inside => ?_
      exact to_int_shift_left left inside
  | shiftRight =>
      refine shifted_on_integers (fun places => left.toInt.fdiv (2 ^ places)) fun inside => ?_
      exact to_int_shift_right left inside
  | and =>
      refine congrArg Except.ok (ext_test_bit fun place => ?_)
      rw [Int.testBit_land, test_bit_to_int, test_bit_to_int, test_bit_to_int,
        Int64.toBitVec_and, BitVec.getLsbD_and]
  | or =>
      refine congrArg Except.ok (ext_test_bit fun place => ?_)
      rw [Int.testBit_lor, test_bit_to_int, test_bit_to_int, test_bit_to_int,
        Int64.toBitVec_or, BitVec.getLsbD_or]
  | xor =>
      refine congrArg Except.ok (ext_test_bit fun place => ?_)
      rw [Int.testBit_lxor, test_bit_to_int, test_bit_to_int, test_bit_to_int,
        Int64.toBitVec_xor, BitVec.getLsbD_xor]

end BinaryOperator

theorem UnaryOperator.on_integers (operator : UnaryOperator) (value : Int64) :
    (operator.apply value).toInt = operator.onIntegers value.toInt := by
  cases operator with
  | negate =>
      rw [onIntegers, zero_sub]
      exact Int64.toInt_neg value
  | complement =>
      apply ext_test_bit
      intro place
      have inside : min place 63 < 64 := Nat.lt_succ_of_le (Nat.min_le_right place 63)
      rw [onIntegers, Int.testBit_lnot, test_bit_to_int, test_bit_to_int]
      change (~~~value).toBitVec.getLsbD _ = _
      rw [Int64.toBitVec_not, BitVec.getLsbD_not, decide_eq_true inside, Bool.true_and]

/-- Only divisions and shifts can fail, the first where the divisor is 0 or the least number is
divided by -1, the others where the amount is no place of a word. -/
theorem BinaryOperator.apply_fails_iff (operator : BinaryOperator) (left right : Int64) :
    (∃ error, operator.apply left right = .error error) ↔
      operator = divide ∧ (right = 0 ∨ left = Int64.minValue ∧ right = -1) ∨
      (operator = shiftLeft ∨ operator = shiftRight) ∧ (right < 0 ∨ 63 < right) := by
  have outside : ¬(0 ≤ right ∧ right < 64) ↔ right < 0 ∨ 63 < right := by
    rw [Int64.le_iff_toInt_le, Int64.lt_iff_toInt_lt, Int64.lt_iff_toInt_lt,
      Int64.lt_iff_toInt_lt]
    change ¬(0 ≤ right.toInt ∧ right.toInt < 64) ↔ right.toInt < 0 ∨ 63 < right.toInt
    omega
  have refused (result : Int64) :
      (∃ error, shifted right result = .error error) ↔ ¬(0 ≤ right ∧ right < 64) := by
    rw [shifted]
    split_ifs with inside <;> simp [inside]
  cases operator with
  | divide =>
      change (∃ error, quotient left right = .error error) ↔ _
      rw [quotient]
      split_ifs with zero least
      · simp [zero]
      · simp [least]
      · simpa [zero] using least
  | shiftLeft => simpa [apply] using (refused (left <<< right)).trans outside
  | shiftRight => simpa [apply] using (refused (left >>> right)).trans outside
  | equal | notEqual | greater | greaterOrEqual | less | lessOrEqual | add | subtract | multiply |
    and | or | xor => simp [apply]

/-- On registers every operator is arithmetic on the integers that they hold. -/
theorem operators_on_integers (left right : Int64) :
    (∀ operator : BinaryOperator, (operator.apply left right).map Int64.toInt =
      operator.onIntegers left.toInt right.toInt) ∧
    (∀ operator : BinaryOperator, (∃ error, operator.apply left right = .error error) ↔
      operator = .divide ∧ (right = 0 ∨ left = Int64.minValue ∧ right = -1) ∨
      (operator = .shiftLeft ∨ operator = .shiftRight) ∧ (right < 0 ∨ 63 < right)) ∧
    ∀ operator : UnaryOperator,
      (operator.apply left).toInt = operator.onIntegers left.toInt :=
  ⟨fun operator => operator.on_integers left right,
    fun operator => operator.apply_fails_iff left right,
    fun operator => operator.on_integers left⟩

end SparseQuantum
