import SparseQuantum.Program
import SparseQuantum.Program.Graph

/-!
Resolving the names of a program. Labels come first: none may repeat, and the entry must be one.
Then the blocks are taken in order, each with its ending before its statements, and the first defect
is reported. Exactly one block must stop.
-/

namespace SparseQuantum

inductive ProgramError where
  | duplicateLabel (label : String)
  /-- A block refers to a label that no block has. -/
  | undefinedLabel (label target : String)
  | missingEntry (label : String)
  | missingEnd
  | duplicateEnd (first second : String)
  | argumentCount (label name : String) (expected given : Nat)
  | controlIsTarget (label name : String) (qubit : QubitId)
  /-- More bits than a register holds. -/
  | measureTooWide (label : String) (count : Nat)
  | unknownOperation (label name : String)
  deriving DecidableEq

namespace ProgramError

def inBlock (label : String) : String := "In block '" ++ label ++ "': "

def message : ProgramError → String
  | duplicateLabel label => "Duplicate label '" ++ label ++ "'"
  | undefinedLabel label target =>
      "Block '" ++ label ++ "' refers to undefined label '" ++ target ++ "'"
  | missingEntry label => "Entry label '" ++ label ++ "' is not defined"
  | missingEnd => "Program has no END block"
  | duplicateEnd first second =>
      "Program has more than one END block: '" ++ first ++ "' and '" ++ second ++ "'"
  | argumentCount label name expected given =>
      inBlock label ++ "gate " ++ name ++ " expects " ++ toString expected ++ " arguments, got " ++
        toString given
  | controlIsTarget label name qubit =>
      inBlock label ++ "gate " ++ name ++ " uses its target " ++ qubit.text ++ " as a control"
  | measureTooWide label count =>
      inBlock label ++ "cannot pack " ++ toString count ++ " measured bits into a 64-bit register"
  | unknownOperation label name => inBlock label ++ "unknown operation '" ++ name ++ "'"

end ProgramError

def registerBits : Nat := 64

namespace Statement

variable {R : Type}

/-- Mnemonics are looked up in upper case; only ASCII letters have one. -/
def upperCase (name : String) : String := name.map Char.toUpper

def resolveGate (label name : String) (angles : List R) : Except ProgramError (Gate R) :=
  match Gate.arity? (upperCase name) with
  | none => .error (.unknownOperation label name)
  | some expected =>
      match Gate.ofName? (upperCase name) angles with
      | some found => .ok found
      | none => .error (.argumentCount label (upperCase name) expected angles.length)

def resolveSymbol {α : Type} (label symbol : String) (operator : Option α) :
    Except ProgramError α :=
  match operator with
  | some operator => .ok operator
  | none => .error (.unknownOperation label symbol)

def resolve (label : String) : Statement R → Except ProgramError (Instruction R)
  | alloc qubit dirty => .ok (.alloc qubit dirty)
  | free qubit dirty => .ok (.free qubit dirty)
  | gate name angles target controls => do
      let found ← resolveGate label name angles
      if target ∈ controls then .error (.controlIsTarget label name target)
      else .ok (.gate found target controls)
  | measure qubits register =>
      if registerBits < qubits.length then .error (.measureTooWide label qubits.length)
      else .ok (.measure qubits register)
  | dump qubits => .ok (.dump qubits)
  | plugin name qubits arguments inverse controls =>
      .ok (.plugin name qubits arguments inverse controls)
  | constant register value => .ok (.constant register value)
  | move target source => .ok (.move target source)
  | binary symbol target left right => do
      let operator ← resolveSymbol label symbol (BinaryOperator.ofSymbol? symbol)
      .ok (.binary operator target left right)
  | unary symbol target source => do
      let operator ← resolveSymbol label symbol (UnaryOperator.ofSymbol? symbol)
      .ok (.unary operator target source)

end Statement

namespace Program

variable {R : Type}

/-- The first label that has occurred before. -/
def firstRepeat? (seen : List String) : List String → Option String
  | [] => none
  | label :: rest => if label ∈ seen then some label else firstRepeat? (label :: seen) rest

def labels (program : Program R) : List String := program.blocks.map (·.label)

def blockNumber (labels : List String) (label target : String) : Except ProgramError Nat :=
  match labels.idxOf? target with
  | some number => .ok number
  | none => .error (.undefinedLabel label target)

/-- The successor of a block; `stopped` is the label of an earlier block that stops. -/
def resolveEnding (labels : List String) (label : String) (stopped : Option String) :
    Ending → Except ProgramError Successor
  | .jump target => do .ok (.jump (← blockNumber labels label target))
  | .branch register onNonzero onZero => do
      let onNonzero ← blockNumber labels label onNonzero
      let onZero ← blockNumber labels label onZero
      .ok (.branch register onNonzero onZero)
  | .stop =>
      match stopped with
      | some first => .error (.duplicateEnd first label)
      | none => .ok .stop

/-- The blocks in order, and the label and number of the one that stops. The first block has the
given number. -/
def resolveBlocks (labels : List String) (stopped : Option (String × Nat)) (number : Nat) :
    List (Block R) → Except ProgramError (List (GraphBlock R) × Option (String × Nat))
  | [] => .ok ([], stopped)
  | block :: rest => do
      let successor ← resolveEnding labels block.label (stopped.map (·.1)) block.ending
      let stopped := if successor = .stop then some (block.label, number) else stopped
      let instructions ← block.statements.mapM (Statement.resolve block.label)
      let (blocks, stopped) ← resolveBlocks labels stopped (number + 1) rest
      .ok (⟨block.label, instructions, successor⟩ :: blocks, stopped)

def resolve (program : Program R) : Except ProgramError (BlockGraph R) :=
  match firstRepeat? [] program.labels with
  | some label => .error (.duplicateLabel label)
  | none =>
      match program.labels.idxOf? program.entry with
      | none => .error (.missingEntry program.entry)
      | some entry => do
          let (blocks, stopped) ← resolveBlocks program.labels none 0 program.blocks
          match stopped with
          | none => .error .missingEnd
          | some (_, last) => .ok ⟨blocks, entry, last⟩

end Program

end SparseQuantum
