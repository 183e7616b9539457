import SparseQuantum.Fault
import SparseQuantum.Identifier
import SparseQuantum.Json.Token

/-!
Why a call to a simulator is refused. A refusal is an answer of the library and has a text for
people; a fault is none, and both can stop a call.
-/

namespace SparseQuantum

inductive SimulatorError where
  | notAllocated (qubit : QubitId)
  | alreadyAllocated (qubit : QubitId)
  /-- No slot is left of so many. -/
  | limitExceeded (limit : Nat)
  /-- An operand is listed twice. -/
  | duplicateQubit (qubit : QubitId)
  | notMeasured (qubit : QubitId)
  | dumpNotFound (index count : Nat)
  | pluginNotFound (name searchPath : String)
  | pluginNotLoaded (path reason : String)
  /-- The plugin itself gave up. -/
  | pluginFailed (name reason : String)
  | fileAccess (reason : String)
  | serialization (flaw : Json.Flaw)

namespace SimulatorError

def flawText : Json.Flaw → String
  | .malformed => "not a JSON text"
  | .truncated => "the text ends early"
  | .mismatched => "unexpected shape"

def message : SimulatorError → String
  | notAllocated qubit => "Qubit " ++ qubit.text ++ " is not allocated"
  | alreadyAllocated qubit => "Qubit " ++ qubit.text ++ " is already allocated"
  | limitExceeded limit =>
      "Qubit limit exceeded: all " ++ toString limit ++ " physical qubits are in use"
  | duplicateQubit qubit =>
      "Qubit " ++ qubit.text ++ " appears more than once in the operand list"
  | notMeasured qubit => "Qubit " ++ qubit.text ++ " has not been measured"
  | dumpNotFound index count =>
      "Dump " ++ toString index ++ " not found (" ++ toString count ++ " recorded)"
  | pluginNotFound name searchPath =>
      "Plugin '" ++ name ++ "' not found (search path: '" ++ searchPath ++ "')"
  | pluginNotLoaded path reason => "Failed to load plugin '" ++ path ++ "': " ++ reason
  | pluginFailed name reason => "Plugin '" ++ name ++ "' failed: " ++ reason
  | fileAccess reason => "I/O error: " ++ reason
  | serialization flaw => "Serialization error: " ++ flawText flaw

end SimulatorError

inductive Stop where
  | refused (error : SimulatorError)
  | fault (fault : Fault)

end SparseQuantum
