import SparseQuantum.Random.KeyStream
import SparseQuantum.Scalar

/-!
The random draws that measurements consume: an endless stream of words and how many of it have been
taken. Statements about measurements can quantify over the stream; a seed picks one particular
stream.
-/

namespace SparseQuantum

structure Draws where
  stream : Nat → UInt64
  taken : Nat

namespace Draws

def ofSeed (seed : UInt64) : Draws := ⟨KeyStream.word seed, 0⟩

def constant (word : UInt64) : Draws := ⟨fun _ => word, 0⟩

def next (draws : Draws) : UInt64 × Draws :=
  (draws.stream draws.taken, { draws with taken := draws.taken + 1 })

/-- A word as a number of the unit interval: its upper 53 bits over 2⁵³. -/
def uniform {R : Type} [Scalar R] (word : UInt64) : R :=
  Scalar.ofNat (word >>> 11).toNat / Scalar.ofNat (1 <<< 53)

end Draws

end SparseQuantum
