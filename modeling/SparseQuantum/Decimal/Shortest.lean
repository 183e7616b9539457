import SparseQuantum.Decimal.Binary

/-!
The shortest decimal that reads back as a given float. Around the float `mantissa · 2 ^ exponent`
lies the interval of the numbers that round to it, ends included when the mantissa is even. Going
from coarse to fine decimal grids, the first grid with a point in the interval wins; of two such
points the nearer one, and an exact tie is decided by the caller.
-/

namespace SparseQuantum.Decimal

inductive Tie where
  | up
  | even
  deriving DecidableEq, Repr

/-- `digits · 10 ^ exponent` -/
structure Digits where
  digits : Nat
  exponent : Int
  deriving DecidableEq, Repr

/-- The interval in quarters of the unit `2 ^ exponent`. It is narrower below a power of two. -/
structure Interval where
  low : Nat
  centre : Nat
  high : Nat
  closed : Bool
  /-- The exponent of a quarter unit. -/
  exponent : Int

def Interval.around (mantissa : Nat) (exponent : Int) : Interval where
  low :=
    if mantissa = leastNormal ∧ leastExponent < exponent then 4 * mantissa - 1
    else 4 * mantissa - 2
  centre := 4 * mantissa
  high := 4 * mantissa + 2
  closed := mantissa % 2 == 0
  exponent := exponent - 2

/-- A unit of the interval and a step of the grid `10 ^ grid` as multiples of a common measure. -/
def Interval.measures (interval : Interval) (grid : Int) : Nat × Nat :=
  let (top, bottom) := scaleByPower 2 1 1 (-interval.exponent)
  scaleByPower 10 top bottom grid

def Interval.holds (interval : Interval) (unit step point : Nat) : Bool :=
  if interval.closed then
    interval.low * unit ≤ point * step && point * step ≤ interval.high * unit
  else interval.low * unit < point * step && point * step < interval.high * unit

/-- The grid point of the interval that is nearest to its centre. -/
def Interval.point? (interval : Interval) (tie : Tie) (grid : Int) : Option Nat :=
  let (unit, step) := interval.measures grid
  let below := interval.centre * unit / step
  let above := below + 1
  match interval.holds unit step below, interval.holds unit step above with
  | true, false => some below
  | false, true => some above
  | false, false => none
  | true, true =>
      let twice := 2 * (interval.centre * unit)
      let middle := (2 * below + 1) * step
      if twice < middle then some below
      else if middle < twice then some above
      else match tie with
        | .up => some above
        | .even => some (if below % 2 = 0 then below else above)

/-- Looks at `count` grids, from `grid` to finer ones. -/
def Interval.search (interval : Interval) (tie : Tie) : Nat → Int → Option Digits
  | 0, _ => none
  | count + 1, grid =>
      match interval.point? tie grid with
      | some point => some ⟨point, grid⟩
      | none => interval.search tie count (grid - 1)

/-- A grid that is too coarse for the number, by little. -/
def coarseGrid (mantissa : Nat) (exponent : Int) : Int :=
  ((mantissa.log2 : Int) + exponent + 1) * 30103 / 100000 + 1

/-- The interval is wide enough for a hit on one of these grids. -/
def shortest (tie : Tie) (mantissa : Nat) (exponent : Int) : Digits :=
  if mantissa = 0 then ⟨0, 0⟩
  else ((Interval.around mantissa exponent).search tie 20 (coarseGrid mantissa exponent)).getD
    ⟨0, 0⟩

end SparseQuantum.Decimal
