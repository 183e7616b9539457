/-!
Decimal integers of bounded size. A sign may come first, then digits only. The text is read from
left to right and refused at the first character that is no digit or takes the number out of its
bounds, whichever comes first.
-/

namespace SparseQuantum.Text

inductive IntegerFlaw where
  | empty
  | invalidDigit
  | tooLarge
  | tooSmall
  deriving DecidableEq, Repr

def IntegerFlaw.message : IntegerFlaw → String
  | empty => "cannot parse integer from empty string"
  | invalidDigit => "invalid digit found in string"
  | tooLarge => "number too large to fit in target type"
  | tooSmall => "number too small to fit in target type"

def digitValue (character : Char) : Nat := character.toNat - '0'.toNat

def readDigits (bound : Nat) (excess : IntegerFlaw) (read : Nat) :
    List Char → Except IntegerFlaw Nat
  | [] => .ok read
  | character :: rest =>
      if character.isDigit then
        let next := read * 10 + digitValue character
        if next ≤ bound then readDigits bound excess next rest else .error excess
      else .error .invalidDigit

def readMagnitude (bound : Nat) (excess : IntegerFlaw) (digits : List Char) :
    Except IntegerFlaw Nat :=
  if digits.isEmpty then .error .invalidDigit else readDigits bound excess 0 digits

def readUInt64 (text : List Char) : Except IntegerFlaw UInt64 :=
  match text with
  | [] => .error .empty
  | '+' :: digits => UInt64.ofNat <$> readMagnitude (UInt64.size - 1) .tooLarge digits
  | digits => UInt64.ofNat <$> readMagnitude (UInt64.size - 1) .tooLarge digits

def negativeBound : Nat := 1 <<< 63

def readInt64 (text : List Char) : Except IntegerFlaw Int64 :=
  match text with
  | [] => .error .empty
  | '-' :: digits =>
      (fun magnitude => Int64.ofInt (-(magnitude : Int))) <$>
        readMagnitude negativeBound .tooSmall digits
  | '+' :: digits => Int64.ofNat <$> readMagnitude (negativeBound - 1) .tooLarge digits
  | digits => Int64.ofNat <$> readMagnitude (negativeBound - 1) .tooLarge digits

end SparseQuantum.Text
