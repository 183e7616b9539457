import SparseQuantum.Decimal.Binary

/-!
Floats read from text: digits with an optional point and exponent, at least one digit around the
point, or a word for infinity or an undefined value in any case of letters. The result is the
nearest float.
-/

namespace SparseQuantum.Decimal

def lower (text : List Char) : String := String.ofList (text.map Char.toLower)

def digitsValue (digits : List Char) : Nat :=
  digits.foldl (fun value digit => value * 10 + (digit.toNat - '0'.toNat)) 0

def readExponent? (text : List Char) : Option Int :=
  let (negative, digits) := match text with
    | '-' :: rest => (true, rest)
    | '+' :: rest => (false, rest)
    | _ => (false, text)
  if digits.isEmpty || !digits.all Char.isDigit then none
  else
    let magnitude : Int := digitsValue digits
    some (if negative then -magnitude else magnitude)

def readTail? : List Char → Option Int
  | [] => some 0
  | 'e' :: rest => readExponent? rest
  | 'E' :: rest => readExponent? rest
  | _ => none

def readMagnitude? (text : List Char) : Option Float :=
  if lower text = "nan" then some notANumber
  else if lower text = "inf" ∨ lower text = "infinity" then some infinity
  else
    let whole := text.takeWhile Char.isDigit
    let rest := text.dropWhile Char.isDigit
    let (fraction, rest) := match rest with
      | '.' :: rest => (rest.takeWhile Char.isDigit, rest.dropWhile Char.isDigit)
      | _ => ([], rest)
    if whole.isEmpty && fraction.isEmpty then none
    else (readTail? rest).map fun exponent =>
      nearestFloat (digitsValue (whole ++ fraction)) (exponent - fraction.length)

def readFloat? (text : List Char) : Option Float :=
  match text with
  | '-' :: rest => (readMagnitude? rest).map fun magnitude => -magnitude
  | '+' :: rest => readMagnitude? rest
  | _ => readMagnitude? text

end SparseQuantum.Decimal
