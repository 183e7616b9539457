import SparseQuantum.Plugin.AddConstant
import SparseQuantum.Text.Quoted

/-!
The plugins that are known by name. A registry begins with the built-in ones and can be given more;
one of an existing name replaces the old one. The search path is where libraries of plugins would be
looked for: none can be loaded here, so a name that is not registered is not found.
-/

namespace SparseQuantum

structure Registry (R : Type) where
  plugins : Std.ExtTreeMap String (Plugin R) compare
  searchPath : String

namespace Registry

variable {R : Type} [Scalar R]

def register (registry : Registry R) (plugin : Plugin R) : Registry R :=
  { registry with plugins := registry.plugins.insert plugin.name plugin }

def ofSearchPath (searchPath : String) : Registry R :=
  register ⟨.empty, searchPath⟩ AddConstant.plugin

def isResolved (registry : Registry R) (name : String) : Bool := registry.plugins.contains name

def available (registry : Registry R) : List String := registry.plugins.keys

def resolve (registry : Registry R) (name : String) : Except SimulatorError (Plugin R) :=
  match registry.plugins[name]? with
  | some plugin => .ok plugin
  | none => .error (.pluginNotFound name registry.searchPath)

/-- No library can be loaded. -/
def load (path : String) : Except SimulatorError (Plugin R) :=
  .error (.pluginNotLoaded path "libraries are not supported")

def description (registry : Registry R) : String :=
  "PluginRegistry \x7b plugins: [" ++
    ", ".intercalate (registry.available.map Text.describe) ++
    "], search_path: " ++ Text.describe registry.searchPath ++ " \x7d"

end Registry

end SparseQuantum
