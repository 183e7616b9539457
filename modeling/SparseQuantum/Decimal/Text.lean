import SparseQuantum.Decimal.Shortest

/-!
Floats as text. Three notations are used: the plain one of gates and reports, which never has an
exponent; the one of JSON texts, which always shows that it is no integer; and fixed places, rounded
from the exact value.
-/

namespace SparseQuantum.Decimal

def zeros (count : Nat) : String := String.ofList (List.replicate count '0')

/-- `digits` with a point before the last `places` of them, filled up with zeros in front. -/
def pointed (digits : Nat) (places : Nat) : String :=
  if places = 0 then toString digits
  else
    let text := toString digits
    let text := zeros (places + 1 - text.length) ++ text
    let characters := text.toList
    String.ofList (characters.take (characters.length - places)) ++ "." ++
      String.ofList (characters.drop (characters.length - places))

def signed (negative : Bool) (text : String) : String := if negative then "-" ++ text else text

/-- Without exponent, and without a point where none is needed. A tie between two shortest decimals
goes up. -/
def plain (value : Float) : String :=
  match Binary.ofFloat value with
  | .notANumber => "NaN"
  | .infinite negative => signed negative "inf"
  | .finite negative mantissa exponent =>
      let shortest := shortest .up mantissa exponent
      signed negative <|
        if 0 ≤ shortest.exponent then toString shortest.digits ++ zeros shortest.exponent.toNat
        else pointed shortest.digits (-shortest.exponent).toNat

/-- The first digit before the point, the others behind it, and the exponent with its sign. -/
def scientific (digits : Nat) (exponent : Int) : String :=
  let text := toString digits
  let power := exponent + text.length - 1
  let mantissa := if text.length = 1 then text else pointed digits (text.length - 1)
  mantissa ++ "e" ++ (if 0 ≤ power then "+" else "-") ++ toString power.natAbs

/-- The notation of JSON texts; what is not finite has none. An exponent is used below 10⁻⁵ and from
10¹⁶ on. A tie between two shortest decimals goes to the even one. -/
def json? (value : Float) : Option String :=
  match Binary.ofFloat value with
  | .notANumber => none
  | .infinite _ => none
  | .finite negative mantissa exponent =>
      let shortest := shortest .even mantissa exponent
      let point := shortest.exponent + (toString shortest.digits).length
      some <| signed negative <|
        if mantissa = 0 then "0.0"
        else if point ≤ -5 || 16 < point then scientific shortest.digits shortest.exponent
        else if 0 ≤ shortest.exponent then
          toString shortest.digits ++ zeros shortest.exponent.toNat ++ ".0"
        else pointed shortest.digits (-shortest.exponent).toNat

/-- The magnitude with `places` digits behind the point; a half goes to the even neighbour. -/
def fixedMagnitude (places mantissa : Nat) (exponent : Int) : String :=
  let (top, bottom) := scaleByPower 2 (mantissa * Nat.pow 10 places) 1 (-exponent)
  pointed (roundDiv top bottom) places

def fixed (places : Nat) (value : Float) : String :=
  match Binary.ofFloat value with
  | .notANumber => "NaN"
  | .infinite negative => signed negative "inf"
  | .finite negative mantissa exponent => signed negative (fixedMagnitude places mantissa exponent)

def fixedSigned (places : Nat) (value : Float) : String :=
  match Binary.ofFloat value with
  | .notANumber => "NaN"
  | .infinite negative => (if negative then "-" else "+") ++ "inf"
  | .finite negative mantissa exponent =>
      (if negative then "-" else "+") ++ fixedMagnitude places mantissa exponent

def scientificMagnitude (places mantissa : Nat) (exponent : Int) : String :=
  let onGrid := fun (grid : Int) =>
    let (top, bottom) := scaleByPower 2 mantissa 1 (-exponent)
    scaleByPower 10 top bottom grid
  -- The coarsest grid on which enough digits stand before the rounding.
  let grids := (List.range 30).map fun (step : Nat) => coarseGrid mantissa exponent - (step : Int)
  match grids.find? fun grid => Nat.pow 10 places ≤ (onGrid grid).1 / (onGrid grid).2 with
  | none => pointed 0 places ++ "e0"
  | some grid =>
      let digits := roundDiv (onGrid grid).1 (onGrid grid).2
      -- The rounding may have carried into one more digit.
      if digits < Nat.pow 10 (places + 1) then
        pointed digits places ++ "e" ++ toString (grid + places)
      else pointed (digits / 10) places ++ "e" ++ toString (grid + places + 1)

def scientificFixed (places : Nat) (value : Float) : String :=
  match Binary.ofFloat value with
  | .notANumber => "NaN"
  | .infinite negative => signed negative "inf"
  | .finite negative mantissa exponent =>
      signed negative (scientificMagnitude places mantissa exponent)

end SparseQuantum.Decimal
