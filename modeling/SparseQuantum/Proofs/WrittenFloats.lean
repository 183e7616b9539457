import Mathlib
import SparseQuantum.Proofs.WrittenNumerals

/-!
# Floats as they are written

Each notation of the shortest decimal is a number without a leading zero: the plain one with a point
among or before the digits, the one with zeros up to the point, and the one with an exponent. The
second needs that the digits are not all zero, which is so because no interval around a positive
number holds zero.
-/

namespace SparseQuantum.Json

set_option autoImplicit false

open Decimal

/-! ### The digits of the shortest decimal -/

theorem scale_by_power_positive {base numerator : Nat} (denominator : Nat) (exponent : Int)
    (some : 0 < base) (positive : 0 < numerator) :
    0 < (scaleByPower base numerator denominator exponent).1 := by
  rw [scaleByPower]
  split
  · exact positive
  · exact Nat.mul_pos positive (Nat.pow_pos some)

theorem zero_outside {interval : Interval} (positive : 0 < interval.low) {unit : Nat} (step : Nat)
    (some : 0 < unit) : interval.holds unit step 0 = false := by
  have product := Nat.mul_pos positive some
  rw [Interval.holds]
  split
  · simp
    omega
  · simp

theorem interval_point_positive {interval : Interval} (positive : 0 < interval.low) {tie : Tie}
    {grid : Int} {point : Nat} (found : interval.point? tie grid = some point) : 0 < point := by
  have some : 0 < (interval.measures grid).1 :=
    scale_by_power_positive _ _ (by decide) (scale_by_power_positive _ _ (by decide) (by decide))
  have inside (below : Nat)
      (held : interval.holds (interval.measures grid).1 (interval.measures grid).2 below = true) :
      0 < below := by
    rcases Nat.eq_zero_or_pos below with zero | positiveBelow
    · rw [zero, zero_outside positive _ some] at held
      exact absurd held (by decide)
    · exact positiveBelow
  unfold Interval.point? at found
  simp only at found
  split at found
  case h_1 below _ =>
      rw [← Option.some.inj found]
      exact inside _ below
  case h_2 =>
      rw [← Option.some.inj found]
      exact Nat.succ_pos _
  case h_3 => exact absurd found (by simp)
  case h_4 below above =>
      have positiveBelow := inside _ below
      split at found
      · exact Option.some.inj found ▸ positiveBelow
      · split at found
        · exact Option.some.inj found ▸ Nat.succ_pos _
        · cases tie with
          | up => exact Option.some.inj found ▸ Nat.succ_pos _
          | even =>
              rw [← Option.some.inj found]
              split
              · exact positiveBelow
              · exact Nat.succ_pos _

theorem interval_search_positive {interval : Interval} (positive : 0 < interval.low) {tie : Tie}
    {count : Nat} {grid : Int} {digits : Digits}
    (found : interval.search tie count grid = some digits) : 0 < digits.digits := by
  induction count generalizing grid with
  | zero => simp [Interval.search] at found
  | succ count induction =>
      rw [Interval.search] at found
      split at found
      · next point here =>
        rw [Option.some.injEq] at found
        rw [← found]
        exact interval_point_positive positive here
      · exact induction found

/-- The shortest decimal of a number that is not zero has a digit other than zero. The search that
finds none gives a plain zero. -/
theorem shortest_digits {tie : Tie} {mantissa : Nat} {exponent : Int} :
    0 < (shortest tie mantissa exponent).digits ∨
      (shortest tie mantissa exponent).exponent = 0 := by
  rw [shortest]
  split
  · exact .inr rfl
  · next nonzero =>
    have positive : 0 < (Interval.around mantissa exponent).low := by
      simp only [Interval.around]
      split <;> omega
    cases found : (Interval.around mantissa exponent).search tie 20
        (coarseGrid mantissa exponent) with
    | none => exact .inr rfl
    | some digits => exact .inl (interval_search_positive positive found)

/-! ### Digits around a point -/

/-- The digits of a plain text, filled up with zeros so that one stands before the point. -/
def padded (digits places : Nat) : List Char :=
  List.replicate (places + 1 - (Nat.toDigits 10 digits).length) '0' ++ Nat.toDigits 10 digits

theorem padded_length (digits places : Nat) :
    places + 1 ≤ (padded digits places).length ∧
      ((padded digits places).length = places + 1 ∨
        padded digits places = Nat.toDigits 10 digits) := by
  rw [padded, List.length_append, List.length_replicate]
  refine ⟨by omega, ?_⟩
  by_cases short : (Nat.toDigits 10 digits).length ≤ places + 1
  · exact .inl (by omega)
  · refine .inr ?_
    rw [show places + 1 - (Nat.toDigits 10 digits).length = 0 by omega]
    rfl

theorem padded_digits (digits places : Nat) (character : Char)
    (inside : character ∈ padded digits places) : character.isDigit = true := by
  rw [padded, List.mem_append] at inside
  rcases inside with zero | digit
  · rw [List.eq_of_mem_replicate zero]
    decide
  · exact Nat.isDigit_of_mem_toDigits (by decide) (by decide) digit

theorem pointed_characters {digits places : Nat} (some : places ≠ 0) :
    (pointed digits places).toList =
      (padded digits places).take ((padded digits places).length - places) ++
        '.' :: (padded digits places).drop ((padded digits places).length - places) := by
  have text : (zeros (places + 1 - (toString digits).length) ++ toString digits).toList =
      padded digits places := by
    rw [Nat.toString_eq_repr, Nat.repr_eq_ofList_toDigits, String.toList_append, zeros,
      String.toList_ofList, String.toList_ofList, padded, String.length_ofList]
  rw [pointed, if_neg some]
  simp only [text, String.toList_append, String.toList_ofList, List.append_assoc]
  rfl

def WrittenNumeral.ofPointed (digits places : Nat) (some : places ≠ 0) : WrittenNumeral where
  negative := false
  whole := {
    characters := (padded digits places).take ((padded digits places).length - places)
    nonempty := by
      have long := (padded_length digits places).1
      rw [ne_eq, ← List.length_eq_zero_iff, List.length_take]
      omega
    digits := fun character inside =>
      padded_digits digits places character (List.mem_of_mem_take inside) }
  unpadded := by
    intro next rest shape
    have size := congrArg List.length shape
    rw [List.length_take, List.length_cons, List.length_cons] at size
    rcases (padded_length digits places).2 with short | same
    · omega
    · simp only [same] at shape
      have whole := List.take_append_drop ((Nat.toDigits 10 digits).length - places)
        (Nat.toDigits 10 digits)
      rw [shape] at whole
      exact to_digits_unpadded digits next _ whole.symm
  fraction := Option.some {
    characters := (padded digits places).drop ((padded digits places).length - places)
    nonempty := by
      have long := (padded_length digits places).1
      rw [ne_eq, ← List.length_eq_zero_iff, List.length_drop]
      omega
    digits := fun character inside =>
      padded_digits digits places character (List.mem_of_mem_drop inside) }
  exponent := none

theorem WrittenNumeral.of_pointed_magnitude (digits places : Nat) (some : places ≠ 0) :
    (WrittenNumeral.ofPointed digits places some).magnitude = (pointed digits places).toList := by
  rw [pointed_characters some, magnitude]
  simp only [ofPointed, fractionCharacters, exponentCharacters, List.append_nil]

/-! ### The three notations -/

def IsMagnitude (text : String) : Prop :=
  ∃ written : WrittenNumeral, written.magnitude = text.toList

theorem pointed_is_magnitude (digits : Nat) {places : Nat} (some : places ≠ 0) :
    IsMagnitude (pointed digits places) :=
  ⟨_, WrittenNumeral.of_pointed_magnitude digits places some⟩

theorem WrittenNumeral.exponent_magnitude (written : WrittenNumeral)
    (none : written.exponent = none) (power : Int) :
    WrittenNumeral.magnitude
        { written with exponent := some (decide (power < 0), .ofNat power.natAbs) } =
      written.magnitude ++
        ("e" ++ (if 0 ≤ power then "+" else "-") ++ toString power.natAbs).toList := by
  simp only [magnitude, none, String.toList_append, List.append_assoc, Nat.toString_eq_repr,
    Nat.repr_eq_ofList_toDigits, String.toList_ofList]
  by_cases negative : power < 0
  · rw [decide_eq_true negative, if_neg (by omega)]
    rfl
  · rw [decide_eq_false negative, if_pos (by omega)]
    rfl

theorem scientific_is_magnitude (digits : Nat) (exponent : Int) :
    IsMagnitude (scientific digits exponent) := by
  have split (mantissa : String) (written : WrittenNumeral) (none : written.exponent = none)
      (same : written.magnitude = mantissa.toList) (power : Int) :
      IsMagnitude (mantissa ++ "e" ++ (if 0 ≤ power then "+" else "-") ++
        toString power.natAbs) := by
    refine ⟨_, (written.exponent_magnitude none power).trans ?_⟩
    rw [same, ← String.toList_append]
    simp only [String.append_assoc]
  unfold scientific
  by_cases single : (toString digits).length = 1
  · simp only [if_pos single]
    refine split _ (.ofInt digits) rfl ?_ _
    rw [Nat.toString_eq_repr, Nat.repr_eq_ofList_toDigits, String.toList_ofList]
    simp [WrittenNumeral.magnitude, WrittenNumeral.ofInt, DigitRun.ofNat,
      WrittenNumeral.fractionCharacters, WrittenNumeral.exponentCharacters]
  · have some : (toString digits).length - 1 ≠ 0 := by
      have long : 0 < (toString digits).length := by
        rw [Nat.toString_eq_repr, Nat.repr_eq_ofList_toDigits, String.length_ofList]
        exact Nat.length_toDigits_pos
      omega
    simp only [if_neg single]
    exact split _ (.ofPointed digits _ some) rfl (WrittenNumeral.of_pointed_magnitude ..) _

def DigitRun.filled (digits places : Nat) : DigitRun where
  characters := Nat.toDigits 10 digits ++ List.replicate places '0'
  nonempty := by simp [Nat.toDigits_ne_nil]
  digits := by
    intro character inside
    rcases List.mem_append.1 inside with digit | zero
    · exact Nat.isDigit_of_mem_toDigits (by decide) (by decide) digit
    · rw [List.eq_of_mem_replicate zero]
      decide

theorem filled_unpadded {digits places : Nat} (unpadded : 0 < digits ∨ places = 0) (next : Char)
    (rest : List Char) : (DigitRun.filled digits places).characters ≠ '0' :: next :: rest := by
  show Nat.toDigits 10 digits ++ List.replicate places '0' ≠ _
  intro shape
  rcases unpadded with positive | zero
  · obtain ⟨digit, others, first, nonzero⟩ := to_digits_first positive
    rw [first, List.cons_append, List.cons.injEq] at shape
    exact nonzero shape.1
  · rw [zero, List.replicate_zero, List.append_nil] at shape
    exact to_digits_unpadded digits next rest shape

theorem whole_is_magnitude {digits places : Nat} (unpadded : 0 < digits ∨ places = 0) :
    IsMagnitude (toString digits ++ zeros places ++ ".0") := by
  refine ⟨⟨false, .filled digits places, filled_unpadded unpadded,
    some ⟨['0'], by simp, by simp⟩, none⟩, ?_⟩
  simp only [WrittenNumeral.magnitude, String.toList_append, zeros, String.toList_ofList,
    Nat.toString_eq_repr, Nat.repr_eq_ofList_toDigits]
  rfl

theorem float_written {value : Float} {text : String} (written : json? value = some text) :
    ∃ numeral : WrittenNumeral, numeral.characters = text.toList := by
  have sign (negative : Bool) {text : String} (magnitude : IsMagnitude text) :
      ∃ numeral : WrittenNumeral, numeral.characters = (signed negative text).toList := by
    obtain ⟨numeral, same⟩ := magnitude
    refine ⟨{ numeral with negative := negative }, ?_⟩
    cases negative with
    | true =>
        show '-' :: numeral.magnitude = _
        rw [same, signed, if_pos rfl, String.toList_append]
        rfl
    | false => exact same
  unfold json? at written
  split at written
  · exact absurd written (by simp)
  · exact absurd written (by simp)
  · next negative mantissa exponent _ =>
    rw [Option.some.injEq] at written
    rw [← written]
    apply sign
    have nonzero := @shortest_digits .even mantissa exponent
    split_ifs with zero large integer
    · exact @whole_is_magnitude 0 0 (.inr rfl)
    · exact scientific_is_magnitude _ _
    · exact whole_is_magnitude (nonzero.imp_right fun plain => by rw [plain]; rfl)
    · exact pointed_is_magnitude _ (by omega)

end SparseQuantum.Json
