/-!
Machine floats as exact binary fractions, and back: the nearest float of a quotient of natural
numbers, with an exact tie going to the even neighbour.
-/

namespace SparseQuantum.Decimal

inductive Binary where
  | notANumber
  | infinite (negative : Bool)
  /-- `mantissa · 2 ^ exponent`, with a sign also for zero. -/
  | finite (negative : Bool) (mantissa : Nat) (exponent : Int)
  deriving DecidableEq, Repr

def leastExponent : Int := -1074

/-- The least mantissa of a float that is not near zero: one digit before 52 others. -/
def leastNormal : Nat := 1 <<< 52

def signBit : Nat := 1 <<< 63

def topField : Nat := 0x7FF

def Binary.ofBits (bits : Nat) : Binary :=
  let negative := bits / signBit % 2 == 1
  let field : Nat := bits / leastNormal % (topField + 1)
  let fraction : Nat := bits % leastNormal
  if field = topField then
    if fraction = 0 then .infinite negative else .notANumber
  else if field = 0 then .finite negative fraction leastExponent
  else .finite negative (fraction + leastNormal) ((field : Int) - 1 + leastExponent)

def Binary.ofFloat (value : Float) : Binary := .ofBits value.toBits.toNat

/-- The nearest natural number to `numerator / denominator`; a tie goes to the even one. -/
def roundDiv (numerator denominator : Nat) : Nat :=
  let quotient := numerator / denominator
  let twice := 2 * (numerator % denominator)
  if twice < denominator then quotient
  else if denominator < twice then quotient + 1
  else if quotient % 2 = 0 then quotient
  else quotient + 1

/-- `numerator / denominator` over `2 ^ exponent`, as a numerator and a denominator. -/
def scaleByPower (base numerator denominator : Nat) (exponent : Int) : Nat × Nat :=
  if 0 ≤ exponent then (numerator, denominator * base.pow exponent.toNat)
  else (numerator * base.pow (-exponent).toNat, denominator)

def bitsOfQuotient (numerator denominator : Nat) : Nat :=
  if numerator = 0 then 0
  else
    let guess := max ((numerator.log2 : Int) - denominator.log2 - 53) leastExponent
    let (top, bottom) := scaleByPower 2 numerator denominator guess
    let exponent := if top / bottom < 2 * leastNormal then guess else guess + 1
    let (top, bottom) := scaleByPower 2 numerator denominator exponent
    min ((exponent - leastExponent).toNat * leastNormal + roundDiv top bottom)
      (topField * leastNormal)

def infinity : Float := Float.ofBits 0x7FF0000000000000

def notANumber : Float := Float.ofBits 0x7FF8000000000000

/-- The nearest float to `digits · 10 ^ exponent`. Exponents far outside the floats' range are not
worked out. -/
def nearestFloat (digits : Nat) (exponent : Int) : Float :=
  let size := (toString digits).length + exponent
  if digits = 0 || size < -400 then 0
  else if 400 < size then infinity
  else
    let (top, bottom) := scaleByPower 10 digits 1 (-exponent)
    Float.ofBits (UInt64.ofNat (bitsOfQuotient top bottom))

end SparseQuantum.Decimal
