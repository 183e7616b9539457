import SparseQuantum.Json.Tree

/-!
Readers of typed values. Each goes through a tree from the left and stops at the first thing that is
wrong, be it a defect of the text or a shape that does not fit.

A record may be written as an object or as an array of its fields in order. In an object the fields
may come in any order, unknown ones are passed over, and a field that comes again is refused as soon
as its name is read. In an array fields may be absent at the end only, and an array that goes on
behind the last field is malformed. A choice between variants is the name of a variant alone, or an
object with the name of one variant and its content.
-/

namespace SparseQuantum.Json

/-- What a reader meets that asks for another kind of value. -/
def Tree.mismatch : Tree → Flaw
  | .null | .bool _ | .array _ | .object _ => .mismatched
  | .number .excessive => .malformed
  | .number _ => .mismatched
  | .text (.error flaw) => flaw
  | .text (.ok _) => .mismatched
  | .missing flaw => flaw
  | .broken ends => ends.strict
  | .brokenText ends => ends.strict

/-! ### Passing over a value -/

mutual

/-- Passes over a value: escapes and the sizes of numbers do not matter. -/
def Tree.skip : Tree → Except Flaw Unit
  | .null | .bool _ | .number _ | .text _ => .ok ()
  | .array items => items.skip
  | .object members => members.skip
  | .missing flaw => .error flaw
  | .broken ends => .error ends.lenient
  | .brokenText ends => .error ends.lenient

def Items.skip : Items → Except Flaw Unit
  | .closed => .ok ()
  | .item value rest => do
      value.skip
      rest.skip
  | .broken flaw => .error flaw
  | .dangling flaw => .error flaw

def Members.skip : Members → Except Flaw Unit
  | .closed => .ok ()
  | .member _ value rest => do
      value.skip
      rest.skip
  | .broken flaw => .error flaw
  | .brokenName ends => .error ends.lenient

end

/-! ### Values nested too deep -/

/-- Arrays and objects stand inside of each other up to here. -/
def deepestLevel : Nat := 127

mutual

/-- The value, in which an array or an object below so many levels is a defect. -/
def Tree.within : Nat → Tree → Tree
  | 0, .array _ | 0, .object _ => .missing .malformed
  | levels + 1, .array items => .array (items.within levels)
  | levels + 1, .object members => .object (members.within levels)
  | _, other => other

def Items.within (levels : Nat) : Items → Items
  | .item value rest => .item (value.within levels) (rest.within levels)
  | other => other

def Members.within (levels : Nat) : Members → Members
  | .member name value rest => .member name (value.within levels) (rest.within levels)
  | other => other

end

/-! ### Values without parts -/

namespace Tree

def readNull : Tree → Except Flaw Unit
  | .null => .ok ()
  | other => .error other.mismatch

def readBool : Tree → Except Flaw Bool
  | .bool value => .ok value
  | other => .error other.mismatch

def readText : Tree → Except Flaw String
  | .text content => content
  | other => .error other.mismatch

def readUInt64 : Tree → Except Flaw UInt64
  | .number (.integer value) =>
      if 0 ≤ value ∧ value < UInt64.size then .ok (UInt64.ofNat value.toNat) else .error .mismatched
  | other => .error other.mismatch

def readInt64 : Tree → Except Flaw Int64
  | .number (.integer value) =>
      if Int64.minValue.toInt ≤ value ∧ value ≤ Int64.maxValue.toInt then .ok (Int64.ofInt value)
      else .error .mismatched
  | other => .error other.mismatch

/-- The nearest float to an integer of 64 bits, signed or not. The magnitude is rounded, which gives
the same on both sides of zero. -/
def floatOfInteger (value : Int) : Float :=
  let magnitude := (UInt64.ofNat value.natAbs).toFloat
  if 0 ≤ value then magnitude else -magnitude

def readFloat : Tree → Except Flaw Float
  | .number (.integer value) => .ok (floatOfInteger value)
  | .number (.real value) => .ok value
  | other => .error other.mismatch

end Tree

/-! ### Arrays -/

namespace Items

def next : Items → Except Flaw (Option (Tree × Items))
  | .closed => .ok none
  | .item value rest => .ok (some (value, rest))
  | .broken flaw => .error flaw
  | .dangling flaw => .error flaw

def finish : Items → Except Flaw Unit
  | .closed => .ok ()
  | .item .. => .error .malformed
  | .dangling _ => .error .malformed
  | .broken flaw => .error flaw

def readAll {α : Type} (read : Tree → Except Flaw α) : Items → Except Flaw (List α)
  | .closed => .ok []
  | .item value rest => do
      let value ← read value
      .ok (value :: (← rest.readAll read))
  | .broken flaw => .error flaw
  | .dangling flaw => .error flaw

end Items

def Tree.readList {α : Type} (read : Tree → Except Flaw α) : Tree → Except Flaw (List α)
  | .array items => items.readAll read
  | other => .error other.mismatch

def Items.readFloats : Nat → Items → Except Flaw (List Float × Items)
  | 0, items => .ok ([], items)
  | count + 1, items => do
      match ← items.next with
      | none => .error .mismatched
      | some (value, rest) =>
          let value ← value.readFloat
          let (values, rest) ← Items.readFloats count rest
          .ok (value :: values, rest)

/-- An array of exactly so many floats. -/
def Tree.readTuple (count : Nat) : Tree → Except Flaw (List Float)
  | .array items => do
      let (values, rest) ← items.readFloats count
      rest.finish
      .ok values
  | other => .error other.mismatch

/-! ### Records -/

/-- A field of a record whose fields are collected in `Parts`. -/
structure RecordField (Parts : Type) where
  name : String
  isSet : Parts → Bool
  read : Tree → Parts → Except Flaw Parts

namespace Members

def fill {Parts : Type} (fields : List (RecordField Parts)) : Members → Parts → Except Flaw Parts
  | .closed, parts => .ok parts
  | .member name value rest, parts => do
      let name ← name
      match fields.find? (·.name == name) with
      | some field =>
          if field.isSet parts then .error .mismatched
          else rest.fill fields (← field.read value parts)
      | none =>
          value.skip
          rest.fill fields parts
  | .broken flaw, _ => .error flaw
  | .brokenName ends, _ => .error ends.strict

def finish : Members → Except Flaw Unit
  | .closed => .ok ()
  | .broken flaw => .error flaw
  | .member .. | .brokenName _ => .error .malformed

end Members

def Items.fill {Parts : Type} :
    List (RecordField Parts) → Items → Parts → Except Flaw (Parts × Items)
  | [], items, parts => .ok (parts, items)
  | field :: fields, items, parts => do
      match ← items.next with
      | none => .ok (parts, items)
      | some (value, rest) => Items.fill fields rest (← field.read value parts)

/-- A record from its collected parts; a part that is missing and has no default is a mismatch. -/
def Tree.readRecord {Parts α : Type} (fields : List (RecordField Parts)) (start : Parts)
    (complete : Parts → Option α) : Tree → Except Flaw α
  | .object members => do
      let parts ← members.fill fields start
      match complete parts with
      | some value => .ok value
      | none => .error .mismatched
  | .array items => do
      let (parts, rest) ← items.fill fields start
      match complete parts with
      | some value => do
          rest.finish
          .ok value
      | none => .error .mismatched
  | other => .error other.mismatch

/-! ### Choices -/

/-- A variant of a choice: its value if it has no content, else the reader of its content. -/
inductive Variant (α : Type) where
  | bare (value : α)
  | carrying (read : Tree → Except Flaw α)

namespace Variant

def alone {α : Type} : Variant α → Except Flaw α
  | .bare value => .ok value
  | .carrying _ => .error .mismatched

/-- The variant with its content, which is null where there is none. -/
def withContent {α : Type} (variant : Variant α) (content : Tree) : Except Flaw α :=
  match variant with
  | .bare value => do
      content.readNull
      .ok value
  | .carrying read => read content

end Variant

def namedVariant {α : Type} (variant? : String → Option (Variant α)) (name : Except Flaw String) :
    Except Flaw (Variant α) := do
  match variant? (← name) with
  | some variant => .ok variant
  | none => .error .mismatched

def Tree.readChoice {α : Type} (variant? : String → Option (Variant α)) : Tree → Except Flaw α
  | .text name => do (← namedVariant variant? name).alone
  | .object .closed => .error .malformed
  | .object (.member name content rest) => do
      let variant ← namedVariant variant? name
      let value ← variant.withContent content
      rest.finish
      .ok value
  | .object (.broken flaw) => .error flaw
  | .object (.brokenName ends) => .error ends.strict
  | .missing flaw => .error flaw
  | .brokenText ends => .error ends.strict
  | .null | .bool _ | .number _ | .array _ | .broken _ => .error .malformed

def readDocument {α : Type} (read : Tree → Except Flaw α) (text : String) : Except Flaw α := do
  let document := Document.ofText text
  let value ← read document.tree
  if document.trailing then .error .malformed else .ok value

end SparseQuantum.Json
