import SparseQuantum.SparseState

/-!
Dumps: what a state looks like on its lowest positions. Basis states that agree there are one group,
which keeps the amplitudes of all of them in sorted order, so that two dumps of one state are equal.
Groups are in ascending order of their patterns, compared word by word with the low word first.
-/

namespace SparseQuantum

/-- The amplitudes of all basis states that share a pattern on the dumped positions. -/
structure DumpGroup (R : Type) where
  /-- 64 positions a word, position 0 in the lowest bit of the first word. -/
  pattern : List Word
  amplitudes : List (Amplitude R)
  deriving BEq

structure Dump (R : Type) where
  qubits : Nat
  groups : List (DumpGroup R)
  deriving BEq

namespace DumpGroup

variable {R : Type} [Scalar R]

def probability (group : DumpGroup R) : R :=
  SparseState.total (group.amplitudes.map Amplitude.normSq)

/-- The pattern is `low` on the first 64 positions and 0 above. -/
def isAt (group : DumpGroup R) (low : Word) : Bool :=
  match group.pattern with
  | [] => low == 0
  | first :: rest => first == low && rest.all (· == 0)

end DumpGroup

namespace Dump

variable {R : Type} [Scalar R]

def group? (dump : Dump R) (low : Word) : Option (DumpGroup R) := dump.groups.find? (·.isAt low)

def amplitudes? (dump : Dump R) (low : Word) : Option (List (Amplitude R)) :=
  (dump.group? low).map (·.amplitudes)

def probability (dump : Dump R) (low : Word) : R :=
  match dump.group? low with
  | some group => group.probability
  | none => 0

end Dump

namespace SparseState

variable {R : Type} [Scalar R]

/-- The amplitudes by pattern, each list in the order of the basis states. -/
def patterns (state : SparseState R) (size : Nat) :
    Std.ExtTreeMap (List Word) (List (Amplitude R)) compare :=
  state.entries.foldl
    (fun groups entry => groups.alter (entry.1.truncate size) fun old =>
      some (old.getD [] ++ [entry.2]))
    .empty

def dump (state : SparseState R) (size : Nat) : Dump R where
  qubits := size
  groups := (state.patterns size).toList.map fun (pattern, amplitudes) =>
    ⟨pattern, amplitudes.mergeSort fun left right => (left.totalOrder right).isLE⟩

end SparseState

end SparseQuantum
