import SparseQuantum.Amplitude
import SparseQuantum.BasisState
import Std.Data.ExtTreeMap

/-!
A quantum state as the finitely many basis states that have an amplitude. Two states with the same
amplitudes are equal, whatever led to them. Amplitudes below the threshold are dropped where a state
is built from given amplitudes (`ofAmplitudes`, `replace`) and where a matrix mixes amplitudes; the
other operations keep what they are given.
-/

namespace SparseQuantum

abbrev Amplitudes (R : Type) := Std.ExtTreeMap BasisState (Amplitude R) compare

@[ext]
structure SparseState (R : Type) where
  amplitudes : Amplitudes R

namespace Amplitudes

variable {R : Type} [Scalar R]

def prune (amplitudes : Amplitudes R) : Amplitudes R :=
  amplitudes.filter fun _ amplitude => amplitude.isKept

/-- Adds to the amplitude of `state`, which counts as zero where there is none. -/
def accumulate (amplitudes : Amplitudes R) (state : BasisState) (amount : Amplitude R) :
    Amplitudes R :=
  amplitudes.alter state fun old => some ((old.getD .zero).add amount)

/-- Of two entries for one basis state the later one stays. -/
def ofEntries (entries : List (BasisState × Amplitude R)) : Amplitudes R :=
  Std.ExtTreeMap.ofList entries compare

end Amplitudes

namespace SparseState

variable {R : Type} [Scalar R]

def ground : SparseState R := ⟨Amplitudes.ofEntries [(.zero, .one)]⟩

def ofAmplitudes (amplitudes : Amplitudes R) : SparseState R := ⟨amplitudes.prune⟩

/-- The state of the new amplitudes, without the negligible ones. -/
def replace (_ : SparseState R) (amplitudes : Amplitudes R) : SparseState R :=
  ofAmplitudes amplitudes

def entries (state : SparseState R) : List (BasisState × Amplitude R) := state.amplitudes.toList

def size (state : SparseState R) : Nat := state.amplitudes.size

def isEmpty (state : SparseState R) : Bool := state.amplitudes.isEmpty

def get? (state : SparseState R) (index : BasisState) : Option (Amplitude R) :=
  state.amplitudes[index]?

def total (values : List R) : R := values.foldl (· + ·) 0

def totalProbability (state : SparseState R) : R :=
  total (state.entries.map (·.2.normSq))

def branchProbability (state : SparseState R) (position : Nat) (value : Bool) : R :=
  total ((state.entries.filter fun entry => entry.1.isOne position == value).map (·.2.normSq))

def probabilityOfZero (state : SparseState R) (position : Nat) : R :=
  state.branchProbability position false

def rekey (state : SparseState R) (move : BasisState → BasisState) : SparseState R :=
  ⟨.ofEntries (state.entries.map fun entry => (move entry.1, entry.2))⟩

/-- The state of two groups of positions side by side. -/
def tensor (left right : SparseState R) : SparseState R :=
  ⟨.ofEntries (left.entries.flatMap fun first => right.entries.map fun second =>
    (first.1.union second.1, first.2.mul second.2))⟩

def strayRead? (state : SparseState R) (positions : List Nat) : Option Fault :=
  state.entries.findSome? fun entry => entry.1.strayRead? positions

def guarded {α : Type} (state : SparseState R) (positions : List Nat) (result : α) :
    Except Fault α :=
  match state.strayRead? positions with
  | some fault => .error fault
  | none => .ok result

end SparseState

end SparseQuantum
