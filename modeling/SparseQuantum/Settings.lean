import SparseQuantum.BasisState
import SparseQuantum.Json.Reader
import SparseQuantum.Json.Value
import SparseQuantum.Text.Blank
import SparseQuantum.Text.Integer

/-!
Settings: where plugins are looked for, the seed of new simulators, where snapshots are written, and
how many slots a simulator has. They can be given by variables of the environment; a value that
cannot be read counts as not given.
-/

namespace SparseQuantum

open Json

structure Settings where
  pluginPath : String
  seed : UInt64
  dumpDirectory : String
  maxQubits : Nat
  deriving DecidableEq

structure SettingOverrides where
  pluginPath : Option String
  seed : Option UInt64
  dumpDirectory : Option String
  maxQubits : Option Nat
  deriving DecidableEq

namespace SettingOverrides

def number? (text : String) : Option UInt64 :=
  match Text.readUInt64 (Text.trim text.toList) with
  | .ok value => some value
  | .error _ => none

def names : List String :=
  ["SPARQ_PLUGIN_PATH", "SPARQ_SEED", "SPARQ_DUMP_DIR", "SPARQ_MAX_QUBITS"]

/-- Slots beyond the width of basis states are of no use. -/
def ofLookup (lookup : String → Option String) : SettingOverrides where
  pluginPath := lookup "SPARQ_PLUGIN_PATH"
  seed := (lookup "SPARQ_SEED").bind number?
  dumpDirectory := lookup "SPARQ_DUMP_DIR"
  maxQubits := ((lookup "SPARQ_MAX_QUBITS").bind number?).map fun value => min value.toNat width

def applyTo (overrides : SettingOverrides) (settings : Settings) : Settings where
  pluginPath := overrides.pluginPath.getD settings.pluginPath
  seed := overrides.seed.getD settings.seed
  dumpDirectory := overrides.dumpDirectory.getD settings.dumpDirectory
  maxQubits := overrides.maxQubits.getD settings.maxQubits

end SettingOverrides

namespace Settings

/-- Limits the number of slots, at most to the width of basis states. -/
def withMaxQubits (settings : Settings) (maxQubits : Nat) : Settings :=
  { settings with maxQubits := min maxQubits width }

def toJson (settings : Settings) : Value :=
  .object
    [("plugin_path", .text settings.pluginPath), ("seed", .ofUInt64 settings.seed),
      ("dump_dir", .text settings.dumpDirectory), ("max_qubits", .ofNat settings.maxQubits)]

def noOverrides : SettingOverrides := ⟨none, none, none, none⟩

def fields : List (RecordField SettingOverrides) :=
  [⟨"plugin_path", (·.pluginPath.isSome), fun tree parts => do
      .ok { parts with pluginPath := some (← tree.readText) }⟩,
    ⟨"seed", (·.seed.isSome), fun tree parts => do
      .ok { parts with seed := some (← tree.readUInt64) }⟩,
    ⟨"dump_dir", (·.dumpDirectory.isSome), fun tree parts => do
      .ok { parts with dumpDirectory := some (← tree.readText) }⟩,
    ⟨"max_qubits", (·.maxQubits.isSome), fun tree parts => do
      .ok { parts with maxQubits := some (← tree.readUInt64).toNat }⟩]

def complete (parts : SettingOverrides) : Option Settings := do
  some ⟨← parts.pluginPath, ← parts.seed, ← parts.dumpDirectory, ← parts.maxQubits⟩

def read (tree : Tree) : Except Flaw Settings := tree.readRecord fields noOverrides complete

def ofText (text : String) : Except Flaw Settings := readDocument read text

end Settings

end SparseQuantum
