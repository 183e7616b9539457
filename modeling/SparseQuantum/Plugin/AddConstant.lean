import SparseQuantum.Plugin
import SparseQuantum.Text.Blank
import SparseQuantum.Text.Integer

/-!
The plugin that adds a constant to a register of up to 64 qubits, modulo a power of two. The first
target is the most significant bit. The constant is a decimal integer of 64 bits with optional sign
and surrounding blanks; the inverse subtracts it.
-/

namespace SparseQuantum.AddConstant

def name : String := "add"

def widestRegister : Nat := 64

inductive Failure where
  | tooWide (qubits : Nat)
  | noInteger (arguments : String) (flaw : Text.IntegerFlaw)

def Failure.reason : Failure → String
  | tooWide qubits => "register of " ++ toString qubits ++ " qubits exceeds 64"
  | noInteger arguments flaw =>
      "expected an integer constant, got '" ++ arguments ++ "': " ++ flaw.message

def readConstant (arguments : String) : Except Failure Int64 :=
  match Text.readInt64 (Text.trim arguments.toList) with
  | .ok value => .ok value
  | .error flaw => .error (.noInteger arguments flaw)

/-- The number that the first `qubits` positions spell, the first one highest. -/
def registerValue (index : BasisState) (qubits : Nat) : UInt64 :=
  (List.range qubits).foldl (fun value position =>
    (value <<< 1) ||| (if index.isOne position then 1 else 0)) 0

def withRegisterValue (index : BasisState) (qubits : Nat) (value : UInt64) : BasisState :=
  (List.range qubits).foldl (fun index position =>
    index.set position ((value >>> UInt64.ofNat (qubits - 1 - position)) &&& 1 == 1)) index

def registerMask (qubits : Nat) : UInt64 :=
  if qubits = widestRegister then 0xFFFFFFFFFFFFFFFF else (1 <<< UInt64.ofNat qubits) - 1

/-- Two's complement makes the sum right modulo every power of two up to 2⁶⁴. -/
def shiftIndex (qubits : Nat) (offset : UInt64) (index : BasisState) : BasisState :=
  withRegisterValue index qubits ((registerValue index qubits + offset) &&& registerMask qubits)

variable {R : Type} [Scalar R]

def shift (state : SparseState R) (qubits : Nat) (offset : UInt64) : SparseState R :=
  state.replace (.ofEntries (state.entries.map fun entry =>
    (shiftIndex qubits offset entry.1, entry.2)))

def transform (call : PluginCall R) : Except Failure (SparseState R) :=
  if widestRegister < call.targets then .error (.tooWide call.targets)
  else do
    let constant ← readConstant call.arguments
    if call.targets = 0 then .ok call.state
    else
      let signed := if call.inverse then -constant else constant
      .ok (shift call.state call.targets signed.toUInt64)

def plugin : Plugin R where
  name := name
  run call :=
    match transform call with
    | .ok state => Plugin.succeed state
    | .error failure => Plugin.fail name failure.reason call.state

end SparseQuantum.AddConstant
