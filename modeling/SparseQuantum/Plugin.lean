import SparseQuantum.Simulator.Error
import SparseQuantum.SparseState

/-!
Plugins: transformations of a state that are called by name. A plugin sees its targets at the first
positions, in the order in which they were given, and its controls at the positions behind them; it
sees only basis states in which all controls are 1. It must leave all positions but its targets
alone, and undo itself when the inverse is asked for.
-/

namespace SparseQuantum

structure PluginCall (R : Type) where
  targets : Nat
  controls : Nat
  arguments : String
  inverse : Bool
  state : SparseState R

/-- A plugin answers with the state it leaves and with why it gave up, if it did. -/
structure Plugin (R : Type) where
  name : String
  run : PluginCall R → SparseState R × Except Stop Unit

namespace Plugin

variable {R : Type}

def succeed (state : SparseState R) : SparseState R × Except Stop Unit := (state, .ok ())

def fail (name reason : String) (state : SparseState R) : SparseState R × Except Stop Unit :=
  (state, .error (.refused (.pluginFailed name reason)))

end Plugin

end SparseQuantum
