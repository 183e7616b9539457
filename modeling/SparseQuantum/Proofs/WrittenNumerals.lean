import Mathlib
import SparseQuantum.Json.Value

/-!
# Numbers as they are written

A written number is a sign, digits without a leading zero, perhaps a fraction and perhaps an
exponent. Whatever stands behind it, the scanner reads exactly that number as long as the next
character does not go on with it. Integers are written in this form, and one of 64 bits is read as
itself.
-/

namespace SparseQuantum.Json

set_option autoImplicit false

open Token

structure DigitRun where
  characters : List Char
  nonempty : characters ≠ []
  digits : ∀ character ∈ characters, character.isDigit = true

theorem DigitRun.first (run : DigitRun) :
    ∃ digit digits, run.characters = digit :: digits ∧ digit.isDigit = true := by
  cases shape : run.characters with
  | nil => exact absurd shape run.nonempty
  | cons digit digits =>
      exact ⟨digit, digits, rfl, run.digits digit (by rw [shape]; exact List.mem_cons_self)⟩

structure WrittenNumeral where
  negative : Bool
  whole : DigitRun
  /-- No digit follows a leading zero. -/
  unpadded : ∀ next rest, whole.characters ≠ '0' :: next :: rest
  fraction : Option DigitRun
  /-- Whether it is negative, and its digits. -/
  exponent : Option (Bool × DigitRun)

namespace WrittenNumeral

def fractionCharacters : Option DigitRun → List Char
  | none => []
  | some run => '.' :: run.characters

def exponentCharacters : Option (Bool × DigitRun) → List Char
  | none => []
  | some (true, run) => 'e' :: '-' :: run.characters
  | some (false, run) => 'e' :: '+' :: run.characters

def magnitude (written : WrittenNumeral) : List Char :=
  written.whole.characters ++
    (fractionCharacters written.fraction ++ exponentCharacters written.exponent)

def characters (written : WrittenNumeral) : List Char :=
  if written.negative then '-' :: written.magnitude else written.magnitude

def numeral (written : WrittenNumeral) : Numeral where
  negative := written.negative
  whole := digitValues written.whole.characters
  fraction := written.fraction.map fun run => digitValues run.characters
  exponent := written.exponent.map fun part => exponentOf part.1 (digitValues part.2.characters)

end WrittenNumeral

/-- How an exponent is marked: by which letter, and whether with a plus where it is not negative. -/
structure ExponentStyle where
  capital : Bool
  plus : Bool

namespace ExponentStyle

def usual : ExponentStyle := ⟨false, true⟩

def sign (style : ExponentStyle) (negative : Bool) : List Char :=
  if negative then ['-'] else if style.plus then ['+'] else []

def characters (style : ExponentStyle) : Option (Bool × DigitRun) → List Char
  | none => []
  | some (negative, run) =>
      (if style.capital then 'E' else 'e') :: (style.sign negative ++ run.characters)

end ExponentStyle

namespace WrittenNumeral

def styledMagnitude (written : WrittenNumeral) (style : ExponentStyle) : List Char :=
  written.whole.characters ++
    (fractionCharacters written.fraction ++ style.characters written.exponent)

def styled (written : WrittenNumeral) (style : ExponentStyle) : List Char :=
  if written.negative then '-' :: written.styledMagnitude style else written.styledMagnitude style

theorem styled_usual (written : WrittenNumeral) : written.styled .usual = written.characters := by
  have same : ExponentStyle.usual.characters written.exponent =
      exponentCharacters written.exponent := by
    rcases written.exponent with _ | ⟨_ | _, run⟩ <;> rfl
  rw [styled, styledMagnitude, same]
  rfl

end WrittenNumeral

def continuesNumber (character : Char) : Bool :=
  character.isDigit || character == '.' || character == 'e' || character == 'E'

/-- What goes on with such characters does not go on into the text. -/
def EndsRun (goesOn : Char → Bool) (text : List Char) : Prop :=
  ∀ character ∈ text.head?, goesOn character = false

abbrev EndsNumber (text : List Char) : Prop := EndsRun continuesNumber text

theorem ends_run_nil (goesOn : Char → Bool) : EndsRun goesOn [] := by
  intro character first
  simp at first

theorem ends_run_cons {goesOn : Char → Bool} {character : Char}
    (stops : goesOn character = false) (rest : List Char) : EndsRun goesOn (character :: rest) := by
  intro other first
  rw [List.head?_cons, Option.mem_some_iff] at first
  exact first ▸ stops

theorem ends_digits_of_ends_number {text : List Char} (ends : EndsNumber text) :
    EndsRun Char.isDigit text := by
  intro character first
  have stops := ends character first
  simp only [continuesNumber, Bool.or_eq_false_iff] at stops
  exact stops.1.1.1

/-! ### Reading the parts -/

theorem take_while_ends {text : List Char} (ends : EndsRun Char.isDigit text) :
    text.takeWhile Char.isDigit = [] ∧ text.dropWhile Char.isDigit = text := by
  cases text with
  | nil => exact ⟨rfl, rfl⟩
  | cons character rest =>
      have stops := ends character rfl
      simp [stops]

/-- A run of digits is read to its end. -/
theorem take_digits_run (run : DigitRun) {rest : List Char} (ends : EndsRun Char.isDigit rest) :
    takeDigits (run.characters ++ rest) = .ok (digitValues run.characters, rest) := by
  obtain ⟨none, all⟩ := take_while_ends ends
  have front : (run.characters ++ rest).takeWhile Char.isDigit = run.characters := by
    rw [List.takeWhile_append_of_pos run.digits, none, List.append_nil]
  have back : (run.characters ++ rest).dropWhile Char.isDigit = rest := by
    rw [List.dropWhile_append_of_pos run.digits, all]
  unfold takeDigits
  rw [front, back]
  cases shape : run.characters with
  | nil => exact absurd shape run.nonempty
  | cons digit digits => rfl

theorem take_whole_run (run : DigitRun)
    (unpadded : ∀ next rest, run.characters ≠ '0' :: next :: rest) {rest : List Char}
    (ends : EndsRun Char.isDigit rest) :
    takeWhole (run.characters ++ rest) = .ok (digitValues run.characters, rest) := by
  have read := take_digits_run run ends
  unfold takeWhole
  split
  case h_1 next more shape =>
      -- The zero stands alone, so the character behind it belongs to the rest.
      have stops : next.isDigit = false := by
        cases characters : run.characters with
        | nil => exact absurd characters run.nonempty
        | cons digit digits =>
            rw [characters, List.cons_append, List.cons.injEq] at shape
            cases digits with
            | nil => exact ends next (by rw [show rest = next :: more from shape.2]; rfl)
            | cons other digits => exact absurd (shape.1 ▸ characters) (unpadded other digits)
      rw [if_neg (by simp [stops])]
      exact read
  case h_2 => exact read

theorem take_fraction_written (fraction : Option DigitRun) {rest : List Char}
    (ends : EndsRun Char.isDigit rest) (other : rest.head? ≠ some '.') :
    takeFraction (WrittenNumeral.fractionCharacters fraction ++ rest) =
      .ok (fraction.map fun run => digitValues run.characters, rest) := by
  cases fraction with
  | none =>
      show takeFraction rest = _
      unfold takeFraction
      split
      · exact absurd rfl other
      · rfl
  | some run =>
      rw [WrittenNumeral.fractionCharacters, List.cons_append, takeFraction,
        take_digits_run run ends]
      rfl

def splitMark (characters : List Char) : Bool × List Char :=
  match characters with
  | '+' :: rest => (false, rest)
  | '-' :: rest => (true, rest)
  | _ => (false, characters)

theorem split_mark_unsigned {text : List Char} (plus : ∀ rest, text ≠ '+' :: rest)
    (minus : ∀ rest, text ≠ '-' :: rest) : splitMark text = (false, text) := by
  unfold splitMark
  split
  · exact absurd rfl (plus _)
  · exact absurd rfl (minus _)
  · rfl

theorem take_exponent_eq {letter : Char} (mark : letter = 'e' ∨ letter = 'E') (text : List Char) :
    takeExponent (letter :: text) = (do
      let (digits, rest) ← takeDigits (splitMark text).2
      .ok (some (exponentOf (splitMark text).1 digits), rest)) := by
  rcases mark with rfl | rfl
  all_goals
    simp only [takeExponent]
    split
    · rfl
    · rfl
    · next plus minus => rw [split_mark_unsigned plus minus]

theorem split_mark_styled (style : ExponentStyle) (negative : Bool) (run : DigitRun)
    (rest : List Char) :
    splitMark (style.sign negative ++ (run.characters ++ rest)) =
      (negative, run.characters ++ rest) := by
  obtain ⟨digit, digits, shape, isDigit⟩ := run.first
  -- Without a sign the digits come first, and none of them is taken for a sign.
  have unsigned : splitMark (run.characters ++ rest) = (false, run.characters ++ rest) := by
    rw [shape, List.cons_append]
    apply split_mark_unsigned
    · rintro others same
      exact absurd ((List.cons.inj same).1 ▸ isDigit) (by decide)
    · rintro others same
      exact absurd ((List.cons.inj same).1 ▸ isDigit) (by decide)
  rcases style with ⟨capital, _ | _⟩ <;> cases negative
  · exact unsigned
  all_goals rfl

theorem take_exponent_styled (style : ExponentStyle) (exponent : Option (Bool × DigitRun))
    {rest : List Char} (ends : EndsNumber rest) :
    takeExponent (style.characters exponent ++ rest) =
      .ok (exponent.map fun part => exponentOf part.1 (digitValues part.2.characters), rest) := by
  match exponent with
  | none =>
      show takeExponent rest = _
      unfold takeExponent
      split
      · exact absurd (ends _ rfl) (by decide)
      · exact absurd (ends _ rfl) (by decide)
      · rfl
  | some (negative, run) =>
      have mark : (if style.capital then 'E' else 'e') = 'e' ∨
          (if style.capital then 'E' else 'e') = 'E' := by
        cases style.capital <;> simp
      rw [ExponentStyle.characters, List.cons_append, List.append_assoc, take_exponent_eq mark,
        split_mark_styled, take_digits_run run (ends_digits_of_ends_number ends)]
      rfl

namespace WrittenNumeral

theorem tail_ends_digits (written : WrittenNumeral) (style : ExponentStyle) {rest : List Char}
    (ends : EndsNumber rest) :
    EndsRun Char.isDigit (style.characters written.exponent ++ rest) ∧
      (style.characters written.exponent ++ rest).head? ≠ some '.' ∧
      EndsRun Char.isDigit (fractionCharacters written.fraction ++
        (style.characters written.exponent ++ rest)) := by
  have behind : EndsRun Char.isDigit (style.characters written.exponent ++ rest) ∧
      (style.characters written.exponent ++ rest).head? ≠ some '.' := by
    match written.exponent with
    | none =>
        exact ⟨ends_digits_of_ends_number ends, fun point => absurd (ends '.' point) (by decide)⟩
    | some (negative, run) =>
        rw [ExponentStyle.characters]
        cases style.capital with
        | true => exact ⟨ends_run_cons (by decide) _, by simp⟩
        | false => exact ⟨ends_run_cons (by decide) _, by simp⟩
  refine ⟨behind.1, behind.2, ?_⟩
  match written.fraction with
  | none => exact behind.1
  | some run => exact ends_run_cons (by decide) _

theorem magnitude_first (written : WrittenNumeral) (style : ExponentStyle) :
    ∃ digit rest, written.styledMagnitude style = digit :: rest ∧ digit.isDigit = true := by
  obtain ⟨digit, digits, shape, isDigit⟩ := written.whole.first
  exact ⟨digit, digits ++ (fractionCharacters written.fraction ++
    style.characters written.exponent), by rw [styledMagnitude, shape]; rfl, isDigit⟩

def splitSign (characters : List Char) : Bool × List Char :=
  match characters with
  | '-' :: rest => (true, rest)
  | _ => (false, characters)

theorem take_numeral_eq (text : List Char) :
    takeNumeral text = (do
      let (whole, rest) ← takeWhole (splitSign text).2
      let (fraction, rest) ← takeFraction rest
      let (exponent, rest) ← takeExponent rest
      .ok (⟨(splitSign text).1, whole, fraction, exponent⟩, rest)) := rfl

theorem split_sign_styled (written : WrittenNumeral) (style : ExponentStyle) (rest : List Char) :
    splitSign (written.styled style ++ rest) =
      (written.negative, written.styledMagnitude style ++ rest) := by
  cases sign : written.negative with
  | true =>
      rw [styled, if_pos sign]
      rfl
  | false =>
      obtain ⟨digit, others, shape, isDigit⟩ := written.magnitude_first style
      rw [styled, if_neg (by simp [sign]), shape, List.cons_append]
      unfold splitSign
      split
      case h_1 same =>
          rw [List.cons.injEq] at same
          rw [same.1] at isDigit
          exact absurd isDigit (by decide)
      case h_2 => rfl

/-- A written number is read as such, however its exponent is marked and whatever stands behind its
end. -/
theorem take_numeral_styled (written : WrittenNumeral) (style : ExponentStyle) {rest : List Char}
    (ends : EndsNumber rest) :
    takeNumeral (written.styled style ++ rest) = .ok (written.numeral, rest) := by
  obtain ⟨behindFraction, noPoint, behindWhole⟩ := written.tail_ends_digits style ends
  have whole := take_whole_run written.whole written.unpadded behindWhole
  have fraction := take_fraction_written written.fraction behindFraction noPoint
  have exponent := take_exponent_styled style written.exponent ends
  rw [take_numeral_eq, split_sign_styled, styledMagnitude, List.append_assoc, List.append_assoc]
  simp only [whole, fraction, exponent, bind, Except.bind]
  rfl

end WrittenNumeral

/-! ### Integers -/

def DigitRun.ofNat (value : Nat) : DigitRun where
  characters := Nat.toDigits 10 value
  nonempty := Nat.toDigits_ne_nil
  digits := fun _ inside => Nat.isDigit_of_mem_toDigits (by decide) (by decide) inside

theorem digit_char_ne_zero {digit : Nat} (positive : 0 < digit) (below : digit < 10) :
    Nat.digitChar digit ≠ '0' := by
  interval_cases digit <;> decide

theorem to_digits_first {value : Nat} (positive : 0 < value) :
    ∃ digit rest, Nat.toDigits 10 value = digit :: rest ∧ digit ≠ '0' := by
  induction value using Nat.strong_induction_on with
  | _ value induction =>
      rw [Nat.toDigits_eq_if (by decide)]
      by_cases small : value < 10
      · exact ⟨_, [], by rw [if_pos small], digit_char_ne_zero positive small⟩
      · obtain ⟨digit, rest, shape, nonzero⟩ := induction (value / 10) (by omega) (by omega)
        exact ⟨digit, _, by rw [if_neg small, shape]; rfl, nonzero⟩

theorem to_digits_unpadded (value : Nat) (next : Char) (rest : List Char) :
    Nat.toDigits 10 value ≠ '0' :: next :: rest := by
  intro shape
  rcases Nat.eq_zero_or_pos value with zero | positive
  · rw [zero] at shape
    simp at shape
  · obtain ⟨digit, others, first, nonzero⟩ := to_digits_first positive
    rw [first, List.cons.injEq] at shape
    exact nonzero shape.1

def WrittenNumeral.ofInt (value : Int) : WrittenNumeral where
  negative := decide (value < 0)
  whole := .ofNat value.natAbs
  unpadded := to_digits_unpadded value.natAbs
  fraction := none
  exponent := none

theorem WrittenNumeral.of_int_characters (value : Int) :
    (WrittenNumeral.ofInt value).characters = (toString value).toList := by
  rw [Int.toString_eq_repr, Int.repr_eq_if, characters, magnitude]
  simp only [ofInt, DigitRun.ofNat, fractionCharacters, exponentCharacters, List.append_nil]
  by_cases negative : value < 0
  · have magnitude : (-value).toNat = value.natAbs := by omega
    rw [if_pos (by simpa using negative), if_neg (by omega), magnitude,
      Nat.repr_eq_ofList_toDigits, String.toList_append, @String.toList_ofList (Nat.toDigits 10 _)]
    rfl
  · have magnitude : value.toNat = value.natAbs := by omega
    rw [if_neg (by simpa using negative), if_pos (by omega), magnitude,
      Nat.repr_eq_ofList_toDigits, String.toList_ofList]

namespace Numeral

theorem take_digit_values (digits : List Char) (significand : Nat)
    (below : Nat.ofDigitChars 10 digits significand < significandBound) :
    take significand (digitValues digits) = (Nat.ofDigitChars 10 digits significand, 0) := by
  induction digits generalizing significand with
  | nil => simp [digitValues, take]
  | cons digit digits induction =>
      rw [Nat.ofDigitChars_cons] at below ⊢
      have shift : 10 * significand + (digit.toNat - '0'.toNat) =
          significand * 10 + (digit.toNat - '0'.toNat) := by omega
      have grows : 10 * significand + (digit.toNat - '0'.toNat) ≤
          Nat.ofDigitChars 10 digits (10 * significand + (digit.toNat - '0'.toNat)) := by
        rw [Nat.ofDigitChars_eq_ofDigitChars_zero]
        have positive : 0 < 10 ^ digits.length := Nat.pow_pos (by decide)
        exact Nat.le_add_right_of_le (Nat.le_mul_of_pos_left _ positive)
      show take significand (_ :: digitValues digits) = _
      rw [take, ← shift, if_pos (by omega), induction _ below]

theorem take_to_digits {value : Nat} (below : value < significandBound) :
    take 0 (digitValues (Nat.toDigits 10 value)) = (value, 0) := by
  rw [take_digit_values _ _ (by rw [Nat.ofDigitChars_ten_toDigits]; exact below),
    Nat.ofDigitChars_ten_toDigits]

end Numeral

def FitsNumber (value : Int) : Prop := -(Decimal.signBit : Int) ≤ value ∧ value < UInt64.size

theorem WrittenNumeral.of_int_number {value : Int} (fits : FitsNumber value) :
    (WrittenNumeral.ofInt value).numeral.number = .integer value := by
  obtain ⟨least, greatest⟩ := fits
  have signBit : Decimal.signBit = 9223372036854775808 := by decide
  have size : UInt64.size = 18446744073709551616 := by decide
  have taken : Numeral.take 0 (digitValues (Nat.toDigits 10 value.natAbs)) = (value.natAbs, 0) :=
    Numeral.take_to_digits (by rw [Numeral.significandBound]; omega)
  simp only [Numeral.number, numeral, ofInt, DigitRun.ofNat, Option.map_none, taken]
  by_cases negative : value < 0
  · rw [if_neg (by simp), if_neg (by simp [negative]), if_pos (by omega)]
    congr 1
    omega
  · rw [if_neg (by simp), if_pos (by simp [negative])]
    congr 1
    omega

end SparseQuantum.Json
