import SparseQuantum.Decimal.Text
import SparseQuantum.Json.Tree
import SparseQuantum.Text.Quoted

/-!
JSON values and the two ways to write them: compact, and with two blanks of indentation a level.
Members keep their order. A float that is not finite has no JSON form and is written as null.
-/

namespace SparseQuantum.Json

inductive Value where
  | null
  | bool (value : Bool)
  | integer (value : Int)
  | real (value : Float)
  | text (value : String)
  | array (items : List Value)
  | object (members : List (String × Value))

namespace Value

def ofNat (value : Nat) : Value := .integer value

def ofUInt64 (value : UInt64) : Value := .integer value.toNat

def ofInt64 (value : Int64) : Value := .integer value.toInt

def scalarText : Value → List Char
  | .null => ['n', 'u', 'l', 'l']
  | .bool true => ['t', 'r', 'u', 'e']
  | .bool false => ['f', 'a', 'l', 's', 'e']
  | .integer value => (toString value).toList
  | .real value => ((Decimal.json? value).getD "null").toList
  | .text value => Text.quote value.toList
  | .array _ => []
  | .object _ => []

mutual

def compactChars : Value → List Char
  | .array items => '[' :: compactItems items ++ [']']
  | .object members => '\x7b' :: compactMembers members ++ ['\x7d']
  | .null => scalarText .null
  | .bool value => scalarText (.bool value)
  | .integer value => scalarText (.integer value)
  | .real value => scalarText (.real value)
  | .text value => scalarText (.text value)

def compactItems : List Value → List Char
  | [] => []
  | [item] => compactChars item
  | item :: rest => compactChars item ++ ',' :: compactItems rest

def compactMembers : List (String × Value) → List Char
  | [] => []
  | [(name, value)] => Text.quote name.toList ++ ':' :: compactChars value
  | (name, value) :: rest =>
      Text.quote name.toList ++ ':' :: compactChars value ++ ',' :: compactMembers rest

end

def newLine (depth : Nat) : List Char := '\n' :: List.replicate (2 * depth) ' '

mutual

def prettyChars (depth : Nat) : Value → List Char
  | .array [] => ['[', ']']
  | .array items => '[' :: prettyItems (depth + 1) items ++ newLine depth ++ [']']
  | .object [] => ['\x7b', '\x7d']
  | .object members => '\x7b' :: prettyMembers (depth + 1) members ++ newLine depth ++ ['\x7d']
  | .null => scalarText .null
  | .bool value => scalarText (.bool value)
  | .integer value => scalarText (.integer value)
  | .real value => scalarText (.real value)
  | .text value => scalarText (.text value)

def prettyItems (depth : Nat) : List Value → List Char
  | [] => []
  | [item] => newLine depth ++ prettyChars depth item
  | item :: rest => newLine depth ++ prettyChars depth item ++ ',' :: prettyItems depth rest

def prettyMembers (depth : Nat) : List (String × Value) → List Char
  | [] => []
  | [(name, value)] =>
      newLine depth ++ Text.quote name.toList ++ ':' :: ' ' :: prettyChars depth value
  | (name, value) :: rest =>
      newLine depth ++ Text.quote name.toList ++ ':' :: ' ' :: prettyChars depth value ++
        ',' :: prettyMembers depth rest

end

def compact (value : Value) : String := String.ofList value.compactChars

def pretty (value : Value) : String := String.ofList (value.prettyChars 0)

end Value

/-! ### Complete trees -/

def Number.value? : Number → Except Flaw Value
  | .integer value => .ok (.integer value)
  | .real value => .ok (.real value)
  | .excessive => .error .malformed

mutual

/-- The value of a tree without any defect. -/
def Tree.value? : Tree → Except Flaw Value
  | .null => .ok .null
  | .bool value => .ok (.bool value)
  | .number value => value.value?
  | .text content => content.map .text
  | .array items => do .ok (.array (← items.values?))
  | .object members => do .ok (.object (← members.values?))
  | .missing flaw => .error flaw
  | .broken ends => .error ends.strict
  | .brokenText ends => .error ends.strict

def Items.values? : Items → Except Flaw (List Value)
  | .closed => .ok []
  | .item value rest => do
      let value ← value.value?
      .ok (value :: (← rest.values?))
  | .broken flaw => .error flaw
  | .dangling flaw => .error flaw

def Members.values? : Members → Except Flaw (List (String × Value))
  | .closed => .ok []
  | .member name value rest => do
      let name ← name
      let value ← value.value?
      .ok ((name, value) :: (← rest.values?))
  | .broken flaw => .error flaw
  | .brokenName ends => .error ends.strict

end

def Document.value? (document : Document) : Except Flaw Value := do
  let value ← document.tree.value?
  if document.trailing then .error .malformed else .ok value

end SparseQuantum.Json
