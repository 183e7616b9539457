import SparseQuantum.Decimal.Binary

/-!
The numbers of JSON texts. A number without point and exponent is an integer as long as it fits into
64 bits, signed or not; every other number is a float. Of the digits of a float only those are kept
that fit into a 64-bit significand, read from the left; the rest counts for the magnitude alone. The
significand is then scaled by a power of ten, in steps that stay within the range of floats. A
number beyond that range is excessive.
-/

namespace SparseQuantum.Json

inductive Number where
  | integer (value : Int)
  | real (value : Float)
  | excessive

structure Numeral where
  negative : Bool
  whole : List Nat
  fraction : Option (List Nat)
  exponent : Option Int

namespace Numeral

def significandBound : Nat := UInt64.size

/-- Appends digits to a significand while it stays below the bound; also how many were left over. -/
def take (significand : Nat) : List Nat → Nat × Nat
  | [] => (significand, 0)
  | digit :: rest =>
      if significand * 10 + digit < significandBound then take (significand * 10 + digit) rest
      else (significand, (digit :: rest).length)

def powerOfTen (exponent : Nat) : Float := Decimal.nearestFloat 1 exponent

def largestPower : Nat := 308

/-- Scales by a power of ten, at most `steps` times by the largest one; nothing if out of range. -/
def scale (value : Float) (exponent : Int) : Nat → Option Float
  | 0 => some value
  | steps + 1 =>
      if exponent.natAbs ≤ largestPower then
        if 0 ≤ exponent then
          let scaled := value * powerOfTen exponent.natAbs
          if scaled.isInf then none else some scaled
        else some (value / powerOfTen exponent.natAbs)
      else if value == 0 then some value
      else if 0 ≤ exponent then none
      else scale (value / powerOfTen largestPower) (exponent + largestPower) steps

/-- Enough steps for a significand to vanish. -/
def scaleSteps : Nat := 4

def real? (numeral : Numeral) : Option Float :=
  let (significand, dropped) := take 0 numeral.whole
  let (significand, unread) := take significand (numeral.fraction.getD [])
  let places := (numeral.fraction.getD []).length - unread
  let exponent := (dropped : Int) - places + numeral.exponent.getD 0
  (scale (UInt64.ofNat significand).toFloat exponent scaleSteps).map fun value =>
    if numeral.negative then -value else value

def ofReal : Option Float → Number
  | some value => .real value
  | none => .excessive

def number (numeral : Numeral) : Number :=
  match numeral.fraction, numeral.exponent with
  | none, none =>
      let (magnitude, dropped) := take 0 numeral.whole
      if dropped ≠ 0 then ofReal numeral.real?
      else if !numeral.negative then .integer magnitude
      else if 0 < magnitude ∧ magnitude ≤ Decimal.signBit then .integer (-(magnitude : Int))
      else ofReal numeral.real?
  | _, _ => ofReal numeral.real?

end Numeral

end SparseQuantum.Json
