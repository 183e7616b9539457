/-!
The operators on registers, which hold two's complement integers of 64 bits. Sums, differences,
products and negation wrap around; comparisons give 1 or 0; quotients are cut toward zero. Division
by zero, a quotient that does not fit, and shifts by fewer than 0 or more than 63 places fail.
-/

namespace SparseQuantum

inductive ArithmeticError where
  | divisionByZero
  | quotientTooLarge
  | shiftAmount
  deriving DecidableEq, Repr

def ArithmeticError.message : ArithmeticError → String
  | divisionByZero => "division by zero"
  | quotientTooLarge => "division overflow"
  | shiftAmount => "shift amount outside 0..64"

inductive BinaryOperator where
  | equal
  | notEqual
  | greater
  | greaterOrEqual
  | less
  | lessOrEqual
  | add
  | subtract
  | multiply
  | divide
  | shiftLeft
  | shiftRight
  | and
  | or
  | xor
  deriving DecidableEq, Repr

inductive UnaryOperator where
  | negate
  | complement
  deriving DecidableEq, Repr

namespace BinaryOperator

def symbol : BinaryOperator → String
  | equal => "=="
  | notEqual => "!="
  | greater => ">"
  | greaterOrEqual => ">="
  | less => "<"
  | lessOrEqual => "<="
  | add => "+"
  | subtract => "-"
  | multiply => "*"
  | divide => "/"
  | shiftLeft => "<<"
  | shiftRight => ">>"
  | and => "and"
  | or => "or"
  | xor => "xor"

def all : List BinaryOperator :=
  [equal, notEqual, greater, greaterOrEqual, less, lessOrEqual, add, subtract, multiply, divide,
    shiftLeft, shiftRight, and, or, xor]

def ofSymbol? (symbol : String) : Option BinaryOperator :=
  all.find? fun operator => operator.symbol == symbol

def truth (value : Bool) : Int64 := if value then 1 else 0

/-- Cut toward zero. -/
def quotient (left right : Int64) : Except ArithmeticError Int64 :=
  if right = 0 then .error .divisionByZero
  else if left = Int64.minValue ∧ right = -1 then .error .quotientTooLarge
  else .ok (left / right)

/-- The result of a shift by 0 to 63 places. -/
def shifted (amount result : Int64) : Except ArithmeticError Int64 :=
  if 0 ≤ amount ∧ amount < 64 then .ok result else .error .shiftAmount

def apply (operator : BinaryOperator) (left right : Int64) : Except ArithmeticError Int64 :=
  match operator with
  | equal => .ok (truth (left = right))
  | notEqual => .ok (truth (left ≠ right))
  | greater => .ok (truth (right < left))
  | greaterOrEqual => .ok (truth (right ≤ left))
  | less => .ok (truth (left < right))
  | lessOrEqual => .ok (truth (left ≤ right))
  | add => .ok (left + right)
  | subtract => .ok (left - right)
  | multiply => .ok (left * right)
  | divide => quotient left right
  | shiftLeft => shifted right (left <<< right)
  | shiftRight => shifted right (left >>> right)
  | and => .ok (left &&& right)
  | or => .ok (left ||| right)
  | xor => .ok (left ^^^ right)

end BinaryOperator

namespace UnaryOperator

def symbol : UnaryOperator → String
  | negate => "neg"
  | complement => "not"

def ofSymbol? (symbol : String) : Option UnaryOperator :=
  if symbol = "neg" ∨ symbol = "-" then some negate
  else if symbol = "not" ∨ symbol = "~" then some complement
  else none

def apply (operator : UnaryOperator) (value : Int64) : Int64 :=
  match operator with
  | negate => -value
  | complement => ~~~value

end UnaryOperator

end SparseQuantum
