import SparseQuantum.Gate
import SparseQuantum.Identifier
import SparseQuantum.Program.Operator

/-!
Block graphs: programs in which every name has been resolved. A block refers to its successors by
their numbers, a gate carries its angles, and operators are no longer symbols. Plugins keep their
names, since they are looked up when they are called.
-/

namespace SparseQuantum

inductive Instruction (R : Type) where
  | alloc (qubit : QubitId) (dirty : Bool)
  | free (qubit : QubitId) (dirty : Bool)
  | gate (gate : Gate R) (target : QubitId) (controls : List QubitId)
  | measure (qubits : List QubitId) (register : RegisterId)
  | dump (qubits : List QubitId)
  | plugin (name : String) (targets : List QubitId) (arguments : String) (inverse : Bool)
      (controls : List QubitId)
  | constant (register : RegisterId) (value : Int64)
  | move (target source : RegisterId)
  | binary (operator : BinaryOperator) (target left right : RegisterId)
  | unary (operator : UnaryOperator) (target source : RegisterId)

inductive Successor where
  | jump (block : Nat)
  | branch (register : RegisterId) (onNonzero onZero : Nat)
  | stop
  deriving DecidableEq, Repr

structure GraphBlock (R : Type) where
  label : String
  instructions : List (Instruction R)
  successor : Successor

structure BlockGraph (R : Type) where
  blocks : List (GraphBlock R)
  entry : Nat
  /-- The block after which a run stops. -/
  last : Nat

namespace BlockGraph

variable {R : Type}

def find? (graph : BlockGraph R) (label : String) : Option Nat :=
  graph.blocks.findIdx? (·.label == label)

end BlockGraph

namespace Instruction

def qubitsText (qubits : List QubitId) : String := ", ".intercalate (qubits.map QubitId.text)

def controlsText (controls : List QubitId) : String :=
  if controls.isEmpty then "" else "[ctrl=" ++ qubitsText controls ++ "]"

variable {R : Type}

def text (number : R → String) : Instruction R → String
  | alloc qubit dirty => "ALLOC " ++ qubit.text ++ (if dirty then " dirty" else "")
  | free qubit dirty => "FREE " ++ qubit.text ++ (if dirty then " dirty" else "")
  | gate applied target controls =>
      applied.text number ++ controlsText controls ++ " " ++ target.text
  | measure qubits register => "MEASURE " ++ qubitsText qubits ++ " -> " ++ register.text
  | dump qubits => "DUMP " ++ qubitsText qubits
  | plugin name targets arguments inverse controls =>
      "PLUGIN" ++ controlsText controls ++ (if inverse then "[adj]" else "") ++ " \"" ++ name ++
        "\" " ++ qubitsText targets ++ " (" ++ arguments ++ ")"
  | constant register value => "SET " ++ register.text ++ ", " ++ toString value.toInt
  | move target source => "MOVE " ++ target.text ++ ", " ++ source.text
  | binary operator target left right =>
      target.text ++ " = " ++ left.text ++ " " ++ operator.symbol ++ " " ++ right.text
  | unary operator target source =>
      target.text ++ " = " ++ operator.symbol ++ " " ++ source.text

end Instruction

end SparseQuantum
