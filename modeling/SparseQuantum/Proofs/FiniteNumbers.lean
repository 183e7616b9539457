import Mathlib
import SparseQuantum.Json.Reader

/-!
# Numbers that are read are finite

A number of a text is an integer of 64 bits or a float. An integer becomes a float below `2 ^ 65`.
A float comes from such an integer by a few divisions by powers of ten and at most one product. A
divisor is no less than `2 ^ -52`, so a few quotients stay far below the range's end, and a product
beyond the end is refused. All this is read off the logical model of floats: a mantissa of so many
bits at its exponent gives a bound that rounding, packing and division move by little.
-/

namespace SparseQuantum.Json

set_option autoImplicit false

open Float.Model Float.Model.UnpackedFloat

/-! ### Packing and unpacking -/

/-- The mantissa has so many bits that it stays below `2 ^ bound` at its exponent. -/
def Fits (bound : Int) (mantissa : Nat) (exponent : Int) : Prop :=
  ∃ bits : Nat, mantissa < 2 ^ bits ∧ exponent + bits ≤ bound

/-- The number is finite and below `2 ^ bound`. -/
def Under (bound : Int) : UnpackedFloat → Prop
  | .finite _ mantissa exponent _ => Fits bound mantissa exponent
  | .zero _ => True
  | _ => False

/-- The number is finite and its exponent is one of those that floats have. -/
def InRange : UnpackedFloat → Prop
  | .finite _ _ exponent _ => exponent ≤ 971
  | .zero _ => True
  | _ => False

theorem under_mono {bound larger : Int} (le : bound ≤ larger) {value : UnpackedFloat}
    (under : Under bound value) : Under larger value := by
  cases value with
  | finite sign mantissa exponent positive =>
      obtain ⟨bits, below, within⟩ := under
      exact ⟨bits, below, by omega⟩
  | _ => exact under

theorem is_finite_of_under {bound : Int} {value : UnpackedFloat} (under : Under bound value) :
    value.isFinite = true := by
  cases value with
  | infinity sign => exact absurd under id
  | notANumber => exact absurd under id
  | _ => rfl

theorem in_range_of_under {bound : Int} {value : UnpackedFloat} (under : Under bound value)
    (small : bound ≤ 971) : InRange value := by
  cases value with
  | finite sign mantissa exponent positive =>
      obtain ⟨bits, below, within⟩ := under
      change exponent ≤ 971
      omega
  | _ => exact under

theorem unpack_components (sign : Sign) (field : BitVec 11) (fraction : BitVec 52)
    (below : field.toNat < 2047) :
    Under (if field = 0#11 then -1022 else field.toNat - 1022)
      (unpack Format.binary64 (packComponents Format.binary64 sign field fraction)) := by
  have notAll : field ≠ -1#11 := by
    intro all
    rw [all] at below
    exact absurd below (by decide)
  unfold UnpackedFloat.unpack
  simp only [unpackExponent_packComponents, unpackMantissa_packComponents,
    unpackSign_packComponents, Sign.ofBitVec_toBitVec, if_neg notAll]
  split_ifs with least nothing
  · trivial
  · refine ⟨52, fraction.isLt, ?_⟩
    rw [least]
    decide
  · refine ⟨53, (1#1 ++ fraction).isLt, ?_⟩
    simp [Format.exponentBias]
    omega

/-- A number in range keeps its bound when it is packed. -/
theorem unpack_pack {value : UnpackedFloat} {bound : Int} (under : Under bound value)
    (least : -1022 ≤ bound) (inRange : InRange value) :
    Under bound (unpack Format.binary64 (pack Format.binary64 value)) := by
  cases value with
  | infinity sign => exact absurd under id
  | notANumber => exact absurd under id
  | zero sign =>
      rw [UnpackedFloat.pack, unpack_packedZero]
      trivial
  | finite sign mantissa exponent positive =>
      change exponent ≤ 971 at inRange
      obtain ⟨bits, below, within⟩ := under
      have bias : (Format.binary64.exponentBias : Int) = 1023 := by decide
      have subnormal (fraction : BitVec 52) : Under bound (unpack Format.binary64
          (packComponents Format.binary64 sign 0#11 fraction)) :=
        under_mono least (unpack_components sign 0#11 fraction (by decide))
      simp only [UnpackedFloat.pack, bias, Nat.cast_ofNat]
      rw [if_neg (by omega)]
      split_ifs with normal
      · have same : (BitVec.ofNat 11 (exponent + 1023 + 52).toNat).toNat =
            (exponent + 1023 + 52).toNat := by
          rw [BitVec.toNat_ofNat, Nat.mod_eq_of_lt (by omega)]
        by_cases lowest : BitVec.ofNat 11 (exponent + 1023 + 52).toNat = 0#11
        · rw [lowest]
          exact subnormal _
        · have full : 53 ≤ bits := by
            have reaches : 2 ^ mantissa.log2 ≤ mantissa := Nat.log2_self_le (by omega)
            have fits : 2 ^ mantissa.log2 < 2 ^ bits := by omega
            have := (Nat.pow_lt_pow_iff_right (by decide : 1 < 2)).1 fits
            have count : mantissa.log2 + 1 = 53 := normal
            omega
          have field : 0 < (exponent + 1023 + 52).toNat := by
            rw [← same, Nat.pos_iff_ne_zero]
            exact fun zero => lowest (BitVec.eq_of_toNat_eq zero)
          have spelled := unpack_components sign (BitVec.ofNat 11 (exponent + 1023 + 52).toNat)
            (BitVec.ofNat 52 mantissa) (by omega)
          rw [if_neg lowest] at spelled
          exact under_mono (by omega) spelled
      · exact subnormal _

theorem in_range_unpack {bits : BitVec 64}
    (finite : (unpack Format.binary64 bits).isFinite = true) :
    InRange (unpack Format.binary64 bits) := by
  have bias : (Format.binary64.exponentBias : Int) = 1023 := by decide
  have width : (@unpackExponent Format.binary64 bits).toNat < 2048 :=
    (@unpackExponent Format.binary64 bits).isLt
  have notAll (all : @unpackExponent Format.binary64 bits = -1#11) :
      (unpack Format.binary64 bits).isFinite = false := by
    unfold UnpackedFloat.unpack
    simp only [if_pos all]
    split_ifs <;> rfl
  have top (field : @unpackExponent Format.binary64 bits ≠ -1#11) :
      (@unpackExponent Format.binary64 bits).toNat ≠ 2047 :=
    fun all => field (BitVec.eq_of_toNat_eq all)
  unfold UnpackedFloat.unpack
  simp only [bias, Nat.cast_ofNat]
  split_ifs with all nothing least zero
  · exact absurd finite (by simp [notAll all])
  · exact absurd finite (by simp [notAll all])
  · trivial
  · have nought : (@unpackExponent Format.binary64 bits).toNat = 0 :=
      congrArg BitVec.toNat least
    change ((@unpackExponent Format.binary64 bits).toNat : Int) - (1023 + 52) + 1 ≤ 971
    omega
  · change ((@unpackExponent Format.binary64 bits).toNat : Int) - (1023 + 52) ≤ 971
    have := top all
    omega

/-- Packing gives infinity or keeps a finite number finite. -/
theorem is_finite_pack {value : UnpackedFloat} (inRange : InRange value) :
    (unpack Format.binary64 (pack Format.binary64 value)).isFinite = true := by
  cases value with
  | infinity sign => exact absurd inRange id
  | notANumber => exact absurd inRange id
  | zero sign => rw [UnpackedFloat.pack, unpack_packedZero]; rfl
  | finite sign mantissa exponent positive =>
      have under : Under (max (exponent + (mantissa.log2 + 1 : Nat)) (-1022))
          (.finite sign mantissa exponent positive) :=
        ⟨mantissa.log2 + 1, Nat.lt_log2_self, le_max_left _ _⟩
      exact is_finite_of_under (unpack_pack under (le_max_right _ _) inRange)

theorem in_range_of_not_inf {value : UnpackedFloat} (finite : value.isFinite = true)
    (small : (unpack Format.binary64 (pack Format.binary64 value)).isInf = false) :
    InRange value := by
  cases value with
  | infinity sign => exact absurd finite Bool.false_ne_true
  | notANumber => exact absurd finite Bool.false_ne_true
  | zero sign => trivial
  | finite sign mantissa exponent positive =>
      have bias : (Format.binary64.exponentBias : Int) = 1023 := by decide
      by_contra beyond
      change ¬ exponent ≤ 971 at beyond
      rw [UnpackedFloat.pack] at small
      simp only [bias, Nat.cast_ofNat] at small
      rw [if_pos (by omega)] at small
      cases sign <;> exact absurd small (by decide)

/-! ### Rounding -/

theorem shift_mantissa (extended : ExtendedMantissa) (count : Nat) :
    (extended >>> count).mantissa = extended.mantissa / 2 ^ count := by
  induction count with
  | zero => exact (Nat.div_one _).symm
  | succ count induction =>
      change (extended >>> count).mantissa / 2 = _
      rw [induction, Nat.div_div_eq_div_mul, pow_succ]

theorem rounded_mantissa_le (extended : ExtendedMantissa) :
    extended.roundedMantissa ≤ extended.mantissa + 1 := by
  unfold ExtendedMantissa.roundedMantissa Accuracy.roundToNearestEven
  split <;> omega

theorem mantissa_of_accuracy (mantissa : Nat) (accuracy : Accuracy) :
    (ExtendedMantissa.ofMantissaAndAccuracy mantissa accuracy).mantissa = mantissa := by
  unfold ExtendedMantissa.ofMantissaAndAccuracy
  split <;> rfl

/-- The bits that a shift takes away from the mantissa go to the exponent, unless none is left. -/
theorem shift_fits {mantissa : Nat} {exponent bound : Int} (accuracy : Accuracy)
    (fits : Fits bound mantissa exponent) (least : -1074 ≤ bound) :
    Fits bound (shiftToTargetExponent Format.binary64 mantissa exponent accuracy).1.mantissa
      (shiftToTargetExponent Format.binary64 mantissa exponent accuracy).2 := by
  obtain ⟨bits, below, within⟩ := fits
  unfold shiftToTargetExponent shiftToExponent
  simp only [shift_mantissa, mantissa_of_accuracy]
  have total : (mantissa.log2 : Int) + 1 + exponent ≤ bound + 1 := by
    rcases mantissa.eq_zero_or_pos with nothing | positive
    · rw [nothing, Nat.log2_zero]
      omega
    · have := (Nat.log2_lt (by omega)).2 below
      omega
  have target : Format.binary64.targetExponent (totalExponent mantissa exponent) =
      max (mantissa.log2 + 1 + exponent - 53) (-1074) := rfl
  rw [target]
  generalize shifted : (max ((mantissa.log2 : Int) + 1 + exponent - 53) (-1074) -
    exponent).toNat = count
  by_cases kept : count ≤ bits
  · refine ⟨bits - count, ?_, by omega⟩
    rw [Nat.div_lt_iff_lt_mul (Nat.two_pow_pos count), ← pow_add, Nat.sub_add_cancel kept]
    exact below
  · have nothing : mantissa / 2 ^ count = 0 :=
      Nat.div_eq_of_lt (below.trans (Nat.pow_lt_pow_right (by decide) (by omega)))
    exact ⟨0, by omega, by omega⟩

theorem rounded_fits {extended : ExtendedMantissa} {exponent bound : Int}
    (fits : Fits bound extended.mantissa exponent) :
    Fits (bound + 1) extended.roundedMantissa exponent := by
  obtain ⟨bits, below, within⟩ := fits
  have rounded := rounded_mantissa_le extended
  have doubled := Nat.two_pow_succ bits
  exact ⟨bits + 1, by omega, by push_cast; omega⟩

theorem round_under {sign : Sign} {mantissa : Nat} {exponent bound : Int} (accuracy : Accuracy)
    (fits : Fits bound mantissa exponent) (least : -1074 ≤ bound) :
    Under (bound + 1) (roundWithAccuracy Format.binary64 sign mantissa exponent accuracy) := by
  have final := shift_fits .exact (rounded_fits (shift_fits accuracy fits least)) (by omega)
  unfold roundWithAccuracy
  simp only
  split_ifs with nothing
  · trivial
  · exact final

theorem fits_shifted {mantissa : Nat} {exponent bound : Int} (count : Nat)
    (fits : Fits bound mantissa exponent) :
    Fits bound (mantissa <<< count) (exponent - count) := by
  obtain ⟨bits, below, within⟩ := fits
  refine ⟨bits + count, ?_, by push_cast; omega⟩
  rw [Nat.shiftLeft_eq, pow_add]
  exact Nat.mul_lt_mul_of_pos_right below (Nat.two_pow_pos count)

theorem round_is_finite (sign : Sign) (mantissa : Nat) (exponent : Int) (accuracy : Accuracy) :
    (roundWithAccuracy Format.binary64 sign mantissa exponent accuracy).isFinite = true := by
  unfold roundWithAccuracy
  simp only
  split_ifs <;> rfl

/-! ### Operations -/

def AtLeast (least : Int) : UnpackedFloat → Prop
  | .finite _ _ exponent _ => least ≤ exponent
  | _ => False

instance (least : Int) : DecidablePred (AtLeast least)
  | .finite _ _ exponent _ => inferInstanceAs (Decidable (least ≤ exponent))
  | .infinity _ => isFalse id
  | .notANumber => isFalse id
  | .zero _ => isFalse id

theorem is_finite_of_at_least {least : Int} {value : UnpackedFloat}
    (enough : AtLeast least value) : value.isFinite = true := by
  cases value with
  | finite sign mantissa exponent positive => rfl
  | _ => exact absurd enough id

/-- The divisor's exponent counts against the bound. -/
theorem div_under {value divisor : UnpackedFloat} {bound least : Int} (under : Under bound value)
    (enough : AtLeast least divisor) (room : -1074 ≤ bound - least) :
    Under (bound - least + 1) (div Format.binary64 value divisor) := by
  cases divisor with
  | infinity sign => exact absurd enough id
  | notANumber => exact absurd enough id
  | zero sign => exact absurd enough id
  | finite divisorSign part small positive =>
      change least ≤ small at enough
      cases value with
      | infinity sign => exact absurd under id
      | notANumber => exact absurd under id
      | zero sign => trivial
      | finite sign mantissa exponent above =>
          change Under _ (roundWithAccuracy _ _ ((mantissa <<< (exponent - small -
            min (exponent - small) _).toNat) / part) (min (exponent - small) _) _)
          generalize Format.targetExponent _ _ = target
          generalize shifted : (exponent - small - min (exponent - small) target).toNat = count
          obtain ⟨bits, below, within⟩ := fits_shifted count under
          have le := Nat.div_le_self (mantissa <<< count) part
          exact round_under _ ⟨bits, by omega, by omega⟩ room

theorem mul_is_finite {left right : UnpackedFloat} (finite : left.isFinite = true)
    (other : right.isFinite = true) : (mul Format.binary64 left right).isFinite = true := by
  cases left <;> cases right <;> first | rfl | exact absurd finite Bool.false_ne_true |
    exact absurd other Bool.false_ne_true | exact round_is_finite _ _ _ _

theorem neg_in_range {value : UnpackedFloat} (inRange : InRange value) : InRange value.neg := by
  cases value <;> exact inRange

theorem of_uint64_under (value : UInt64) :
    Under 65 (UnpackedFloat.ofUInt64 Format.binary64 value) := by
  have below : value.toNat < 2 ^ 64 := value.toNat_lt
  change Under 65 (UnpackedFloat.normalize Format.binary64 (value.toNat : Int) 0 Sign.positive)
  unfold UnpackedFloat.normalize
  split
  · next less => exact absurd (compare_lt_iff_lt.1 less) (by omega)
  · trivial
  · unfold UnpackedFloat.round decreaseExponent
    simp only [Int.toNat_natCast]
    generalize (0 - Format.targetExponent _ _).toNat = count
    have fits : Fits 64 (value.toNat <<< count) (0 - count) :=
      fits_shifted count ⟨64, below, by decide⟩
    exact round_under _ fits (by decide)

/-! ### Floats -/

theorem neg_is_finite {value : Float} (finite : value.isFinite = true) :
    (-value).isFinite = true :=
  is_finite_pack (neg_in_range (in_range_unpack finite))

theorem product_is_finite {left right : Float} (finite : left.isFinite = true)
    (other : right.isFinite = true) (small : (left * right).isInf = false) :
    (left * right).isFinite = true :=
  is_finite_pack (in_range_of_not_inf (mul_is_finite finite other) small)

theorem quotient_under {value divisor : Float} {bound least : Int}
    (under : Under bound value.toModel.unpack) (enough : AtLeast least divisor.toModel.unpack)
    (normal : -1022 ≤ bound - least) (small : bound - least < 971) :
    Under (bound - least + 1) (value / divisor).toModel.unpack := by
  have divided := div_under under enough (by omega)
  exact unpack_pack divided (by omega) (in_range_of_under divided (by omega))

theorem word_under (value : UInt64) : Under 65 value.toFloat.toModel.unpack :=
  unpack_pack (of_uint64_under value) (by decide) (in_range_of_under (of_uint64_under value)
    (by decide))

theorem word_is_finite (value : UInt64) : value.toFloat.isFinite = true :=
  is_finite_of_under (word_under value)

/-! ### Numbers -/

namespace Numeral

theorem power_at_least : ∀ exponent ≤ largestPower,
    AtLeast (-52) (powerOfTen exponent).toModel.unpack := by
  decide +kernel

theorem power_is_finite {exponent : Nat} (known : exponent ≤ largestPower) :
    (powerOfTen exponent).isFinite = true :=
  is_finite_of_at_least (power_at_least exponent known)

/-- A step divides by a power of ten or is the last one; only a product can get out of range. -/
theorem scale_is_finite (steps : Nat) {value scaled : Float} {exponent bound : Int}
    (under : Under bound value.toModel.unpack) (least : 0 ≤ bound)
    (room : bound + 53 * steps ≤ 971) (reached : scale value exponent steps = some scaled) :
    scaled.isFinite = true := by
  have finite : value.isFinite = true := is_finite_of_under under
  induction steps generalizing value exponent bound with
  | zero =>
      obtain rfl := Option.some.inj reached
      exact finite
  | succ steps induction =>
      have divided {power : Nat} (known : power ≤ largestPower) :
          Under (bound + 53) (value / powerOfTen power).toModel.unpack :=
        under_mono (by omega)
          (quotient_under under (power_at_least power known) (by omega) (by omega))
      rw [scale] at reached
      simp only at reached
      split_ifs at reached with near upwards excessive nought
      · obtain rfl := Option.some.inj reached
        exact product_is_finite finite (power_is_finite near) (by simpa using excessive)
      · obtain rfl := Option.some.inj reached
        exact is_finite_of_under (divided near)
      · obtain rfl := Option.some.inj reached
        exact finite
      · have further := divided (Nat.le_refl largestPower)
        exact induction further (by omega) (by push_cast at room; omega) reached
          (is_finite_of_under further)

theorem real_is_finite {numeral : Numeral} {value : Float} (read : numeral.real? = some value) :
    value.isFinite = true := by
  obtain ⟨scaled, reached, rfl⟩ := Option.map_eq_some_iff.1 read
  have finite := scale_is_finite scaleSteps (word_under _) (by decide) (by decide) reached
  split_ifs
  · exact neg_is_finite finite
  · exact finite

/-- A number that is read as a float is finite: one beyond the floats is excessive. -/
theorem number_is_finite {numeral : Numeral} {value : Float}
    (read : numeral.number = .real value) : value.isFinite = true := by
  have real (read : ofReal numeral.real? = .real value) : value.isFinite = true := by
    cases known : numeral.real? with
    | none => rw [known] at read; exact absurd read (by simp [ofReal])
    | some found =>
        rw [known] at read
        obtain rfl := Number.real.inj read
        exact real_is_finite known
  unfold number at read
  split at read
  · simp only at read
    split_ifs at read <;> exact real read
  · exact real read

end Numeral

theorem Tree.integer_is_finite (value : Int) : (floatOfInteger value).isFinite = true := by
  have finite := word_is_finite (UInt64.ofNat value.natAbs)
  by_cases positive : 0 ≤ value
  · rw [floatOfInteger, if_pos positive]
    exact finite
  · rw [floatOfInteger, if_neg positive]
    exact neg_is_finite finite

end SparseQuantum.Json
