import SparseQuantum.Json.Reader
import SparseQuantum.Json.Value
import SparseQuantum.Program

/-!
Programs as JSON texts. Writing is pretty, with all fields in a fixed order; reading takes fields in
any order, passes over unknown ones and fills in those that have a default.

A statement is an object whose kind stands among its fields, or an array that begins with the kind.
Its fields are looked at only when it has been read as a whole, since the kind may come last; from
then on every defect of a field is a mismatch.
-/

namespace SparseQuantum

open Json

/-! ### Writing -/

def QubitId.toJson (qubit : QubitId) : Value := .ofUInt64 qubit.number

def RegisterId.toJson (register : RegisterId) : Value := .ofUInt64 register.number

def qubitsToJson (qubits : List QubitId) : Value := .array (qubits.map QubitId.toJson)

def Ending.toJson : Ending → Value
  | .jump label => .object [("jump", .text label)]
  | .branch register onNonzero onZero =>
      .object [("branch", .object
        [("register", register.toJson), ("then", .text onNonzero), ("otherwise", .text onZero)])]
  | .stop => .text "end"

namespace Statement

/-- The word that tells which statement it is. -/
def kind : Statement Float → String
  | alloc .. => "alloc"
  | free .. => "free"
  | gate .. => "gate"
  | measure .. => "measure"
  | dump .. => "dump"
  | plugin .. => "plugin"
  | constant .. => "const"
  | move .. => "move"
  | binary .. => "binary"
  | unary .. => "unary"

def fields : Statement Float → List (String × Value)
  | alloc qubit dirty => [("qubit", qubit.toJson), ("dirty", .bool dirty)]
  | free qubit dirty => [("qubit", qubit.toJson), ("dirty", .bool dirty)]
  | gate name angles target controls =>
      [("name", .text name), ("args", .array (angles.map .real)), ("target", target.toJson),
        ("ctrl", qubitsToJson controls)]
  | measure qubits register =>
      [("qubits", qubitsToJson qubits), ("register", register.toJson)]
  | dump qubits => [("qubits", qubitsToJson qubits)]
  | plugin name qubits arguments inverse controls =>
      [("name", .text name), ("qubits", qubitsToJson qubits), ("args", .text arguments),
        ("adj", .bool inverse), ("ctrl", qubitsToJson controls)]
  | constant register value => [("register", register.toJson), ("value", .ofInt64 value)]
  | move target source => [("dst", target.toJson), ("src", source.toJson)]
  | binary symbol target left right =>
      [("op", .text symbol), ("dst", target.toJson), ("lhs", left.toJson), ("rhs", right.toJson)]
  | unary symbol target source =>
      [("op", .text symbol), ("dst", target.toJson), ("src", source.toJson)]

def toJson (statement : Statement Float) : Value :=
  .object (("kind", .text statement.kind) :: statement.fields)

end Statement

def Block.toJson (block : Block Float) : Value :=
  .object
    [("label", .text block.label), ("statements", .array (block.statements.map Statement.toJson)),
      ("end", block.ending.toJson)]

def Program.toJson (program : Program Float) : Value :=
  .object [("entry", .text program.entry), ("blocks", .array (program.blocks.map Block.toJson))]

def Program.toText (program : Program Float) : String := program.toJson.pretty

/-! ### Reading identifiers and endings -/

def QubitId.read (tree : Tree) : Except Flaw QubitId := do .ok ⟨← tree.readUInt64⟩

def RegisterId.read (tree : Tree) : Except Flaw RegisterId := do .ok ⟨← tree.readUInt64⟩

def readQubits (tree : Tree) : Except Flaw (List QubitId) := tree.readList QubitId.read

namespace Ending

structure Branch where
  register : Option RegisterId
  onNonzero : Option String
  onZero : Option String

def branchFields : List (RecordField Branch) :=
  [⟨"register", (·.register.isSome), fun tree parts => do
      .ok { parts with register := some (← RegisterId.read tree) }⟩,
    ⟨"then", (·.onNonzero.isSome), fun tree parts => do
      .ok { parts with onNonzero := some (← tree.readText) }⟩,
    ⟨"otherwise", (·.onZero.isSome), fun tree parts => do
      .ok { parts with onZero := some (← tree.readText) }⟩]

def Branch.complete (parts : Branch) : Option Ending := do
  some (.branch (← parts.register) (← parts.onNonzero) (← parts.onZero))

def variant? : String → Option (Variant Ending)
  | "jump" => some (.carrying fun content => jump <$> content.readText)
  | "branch" => some (.carrying fun content =>
      content.readRecord branchFields ⟨none, none, none⟩ Branch.complete)
  | "end" => some (.bare stop)
  | _ => none

def read (tree : Tree) : Except Flaw Ending := tree.readChoice variant?

end Ending

/-! ### Reading statements -/

inductive StatementKind where
  | alloc
  | free
  | gate
  | measure
  | dump
  | plugin
  | constant
  | move
  | binary
  | unary
  deriving DecidableEq, Repr

namespace StatementKind

def ofName? : String → Option StatementKind
  | "alloc" => some alloc
  | "free" => some free
  | "gate" => some gate
  | "measure" => some measure
  | "dump" => some dump
  | "plugin" => some plugin
  | "const" => some constant
  | "move" => some move
  | "binary" => some binary
  | "unary" => some unary
  | _ => none

/-- The names of the fields in the order of the array form. -/
def fieldNames : StatementKind → List String
  | alloc | free => ["qubit", "dirty"]
  | gate => ["name", "args", "target", "ctrl"]
  | measure => ["qubits", "register"]
  | dump => ["qubits"]
  | plugin => ["name", "qubits", "args", "adj", "ctrl"]
  | constant => ["register", "value"]
  | move => ["dst", "src"]
  | binary => ["op", "dst", "lhs", "rhs"]
  | unary => ["op", "dst", "src"]

def read (tree : Tree) : Except Flaw StatementKind := do
  match ofName? (← tree.readText) with
  | some kind => .ok kind
  | none => .error .mismatched

end StatementKind

/-- The fields of a statement that has been read as a whole. -/
abbrev StatementFields := List (String × Tree)

namespace StatementFields

def noRepeat (fields : StatementFields) (kind : StatementKind) : Bool :=
  kind.fieldNames.all fun name => (fields.filter (·.1 == name)).length ≤ 1

def need {α : Type} (fields : StatementFields) (name : String) (read : Tree → Except Flaw α) :
    Except Flaw α :=
  match fields.lookup name with
  | some tree => read tree
  | none => .error .mismatched

def get {α : Type} (fields : StatementFields) (name : String) (read : Tree → Except Flaw α)
    (default : α) : Except Flaw α :=
  match fields.lookup name with
  | some tree => read tree
  | none => .ok default

def qubit (fields : StatementFields) (name : String) : Except Flaw QubitId :=
  fields.need name QubitId.read

def register (fields : StatementFields) (name : String) : Except Flaw RegisterId :=
  fields.need name RegisterId.read

def statement (fields : StatementFields) : StatementKind → Except Flaw (Statement Float)
  | .alloc => do
      .ok (.alloc (← fields.qubit "qubit") (← fields.get "dirty" Tree.readBool false))
  | .free => do
      .ok (.free (← fields.qubit "qubit") (← fields.get "dirty" Tree.readBool false))
  | .gate => do
      .ok (.gate (← fields.need "name" Tree.readText)
        (← fields.get "args" (Tree.readList Tree.readFloat) []) (← fields.qubit "target")
        (← fields.get "ctrl" readQubits []))
  | .measure => do
      .ok (.measure (← fields.need "qubits" readQubits) (← fields.register "register"))
  | .dump => do .ok (.dump (← fields.need "qubits" readQubits))
  | .plugin => do
      .ok (.plugin (← fields.need "name" Tree.readText) (← fields.need "qubits" readQubits)
        (← fields.get "args" Tree.readText "") (← fields.get "adj" Tree.readBool false)
        (← fields.get "ctrl" readQubits []))
  | .constant => do
      .ok (.constant (← fields.register "register") (← fields.need "value" Tree.readInt64))
  | .move => do .ok (.move (← fields.register "dst") (← fields.register "src"))
  | .binary => do
      .ok (.binary (← fields.need "op" Tree.readText) (← fields.register "dst")
        (← fields.register "lhs") (← fields.register "rhs"))
  | .unary => do
      .ok (.unary (← fields.need "op" Tree.readText) (← fields.register "dst")
        (← fields.register "src"))

def complete (fields : StatementFields) (kind : StatementKind) :
    Except Flaw (Statement Float) :=
  if fields.noRepeat kind then (fields.statement kind).mapError fun _ => .mismatched
  else .error .mismatched

end StatementFields

namespace Statement

/-- A statement stands in an array, this in a block, and the blocks in an array of the program. -/
def level : Nat := 5

/-- A part of a statement that is kept until its kind is known must be complete, and it may be
nested as deep as there are levels left. -/
def keep (value : Tree) : Except Flaw Unit :=
  discard (value.within (deepestLevel - level)).value?

/-- The kind and the other members, which must be complete values; the kind is known as soon as its
member is read. -/
def collect : Members → Option StatementKind → StatementFields →
    Except Flaw (StatementKind × StatementFields)
  | .closed, some kind, fields => .ok (kind, fields.reverse)
  | .closed, none, _ => .error .mismatched
  | .member name value rest, kind, fields => do
      let name ← name
      if name = "kind" then
        if kind.isSome then .error .mismatched
        else collect rest (some (← StatementKind.read value)) fields
      else
        keep value
        collect rest kind ((name, value) :: fields)
  | .broken flaw, _, _ => .error flaw
  | .brokenName ends, _, _ => .error ends.strict

def collectItems : Items → Except Flaw (List Tree)
  | .closed => .ok []
  | .item value rest => do
      keep value
      .ok (value :: (← collectItems rest))
  | .broken flaw => .error flaw
  | .dangling flaw => .error flaw

def read : Tree → Except Flaw (Statement Float)
  | .object members => do
      let (kind, fields) ← collect members none []
      fields.complete kind
  | .array items => do
      match ← items.next with
      | none => .error .mismatched
      | some (first, rest) =>
          let kind ← StatementKind.read first
          let values ← collectItems rest
          if kind.fieldNames.length < values.length then .error .mismatched
          else StatementFields.complete (kind.fieldNames.zip values) kind
  | other => .error other.mismatch

end Statement

/-! ### Reading blocks and programs -/

namespace Block

structure Parts where
  label : Option String
  statements : Option (List (Statement Float))
  ending : Option Ending

def fields : List (RecordField Parts) :=
  [⟨"label", (·.label.isSome), fun tree parts => do
      .ok { parts with label := some (← tree.readText) }⟩,
    ⟨"statements", (·.statements.isSome), fun tree parts => do
      .ok { parts with statements := some (← tree.readList Statement.read) }⟩,
    ⟨"end", (·.ending.isSome), fun tree parts => do
      .ok { parts with ending := some (← Ending.read tree) }⟩]

def Parts.complete (parts : Parts) : Option (Block Float) := do
  some ⟨← parts.label, parts.statements.getD [], ← parts.ending⟩

def read (tree : Tree) : Except Flaw (Block Float) :=
  tree.readRecord fields ⟨none, none, none⟩ Parts.complete

end Block

namespace Program

structure Parts where
  entry : Option String
  blocks : Option (List (Block Float))

def fields : List (RecordField Parts) :=
  [⟨"entry", (·.entry.isSome), fun tree parts => do
      .ok { parts with entry := some (← tree.readText) }⟩,
    ⟨"blocks", (·.blocks.isSome), fun tree parts => do
      .ok { parts with blocks := some (← tree.readList Block.read) }⟩]

def Parts.complete (parts : Parts) : Option (Program Float) := do
  some ⟨← parts.entry, ← parts.blocks⟩

def read (tree : Tree) : Except Flaw (Program Float) :=
  tree.readRecord fields ⟨none, none⟩ Parts.complete

def ofText (text : String) : Except Flaw (Program Float) := readDocument read text

end Program

end SparseQuantum
