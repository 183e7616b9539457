import SparseQuantum.Identifier

/-!
Programs as they are written: labelled blocks of statements. A block ends by naming the block to
continue with, by choosing between two by a register, or by stopping. Gates and operators are still
given by name; nothing is checked here.
-/

namespace SparseQuantum

inductive Ending where
  | jump (label : String)
  /-- Continues at the first label unless the register is 0. -/
  | branch (register : RegisterId) (onNonzero onZero : String)
  | stop
  deriving BEq, DecidableEq

inductive Statement (R : Type) where
  | alloc (qubit : QubitId) (dirty : Bool)
  | free (qubit : QubitId) (dirty : Bool)
  | gate (name : String) (angles : List R) (target : QubitId) (controls : List QubitId)
  /-- The first qubit becomes the most significant bit. -/
  | measure (qubits : List QubitId) (register : RegisterId)
  | dump (qubits : List QubitId)
  | plugin (name : String) (qubits : List QubitId) (arguments : String) (inverse : Bool)
      (controls : List QubitId)
  | constant (register : RegisterId) (value : Int64)
  | move (target source : RegisterId)
  | binary (symbol : String) (target left right : RegisterId)
  | unary (symbol : String) (target source : RegisterId)
  deriving BEq

structure Block (R : Type) where
  label : String
  statements : List (Statement R)
  ending : Ending
  deriving BEq

structure Program (R : Type) where
  /-- The label of the block to begin with. -/
  entry : String
  blocks : List (Block R)
  deriving BEq

/-! ### Building programs step by step -/

namespace Block

variable {R : Type}

def named (label : String) : Block R := ⟨label, [], .stop⟩

def add (block : Block R) (statement : Statement R) : Block R :=
  { block with statements := block.statements ++ [statement] }

def alloc (block : Block R) (qubit : QubitId) : Block R := block.add (.alloc qubit false)

def allocDirty (block : Block R) (qubit : QubitId) : Block R := block.add (.alloc qubit true)

def free (block : Block R) (qubit : QubitId) : Block R := block.add (.free qubit false)

def freeDirty (block : Block R) (qubit : QubitId) : Block R := block.add (.free qubit true)

def gateWith (block : Block R) (name : String) (angles : List R) (target : QubitId)
    (controls : List QubitId) : Block R :=
  block.add (.gate name angles target controls)

def gate (block : Block R) (name : String) (target : QubitId) : Block R :=
  block.gateWith name [] target []

def measure (block : Block R) (qubits : List QubitId) (register : RegisterId) : Block R :=
  block.add (.measure qubits register)

def dump (block : Block R) (qubits : List QubitId) : Block R := block.add (.dump qubits)

def plugin (block : Block R) (name : String) (qubits : List QubitId) (arguments : String)
    (inverse : Bool) (controls : List QubitId) : Block R :=
  block.add (.plugin name qubits arguments inverse controls)

def constant (block : Block R) (register : RegisterId) (value : Int64) : Block R :=
  block.add (.constant register value)

def move (block : Block R) (target source : RegisterId) : Block R :=
  block.add (.move target source)

def binary (block : Block R) (symbol : String) (target left right : RegisterId) : Block R :=
  block.add (.binary symbol target left right)

def unary (block : Block R) (symbol : String) (target source : RegisterId) : Block R :=
  block.add (.unary symbol target source)

def jump (block : Block R) (label : String) : Block R := { block with ending := .jump label }

def branch (block : Block R) (register : RegisterId) (onNonzero onZero : String) : Block R :=
  { block with ending := .branch register onNonzero onZero }

end Block

namespace Program

variable {R : Type}

def startingAt (entry : String) : Program R := ⟨entry, []⟩

def block (program : Program R) (block : Block R) : Program R :=
  { program with blocks := program.blocks ++ [block] }

end Program

end SparseQuantum
