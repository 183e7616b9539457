/-!
The ways in which a computation over positions, slots and blocks would leave its domain.
A fault is not an answer of the library: every function that could meet one says so in its type,
and a caller that respects the bounds never sees it.
-/

namespace SparseQuantum

inductive Fault where
  /-- A position outside the width of a basis state was read or written. -/
  | position (position : Nat)
  /-- A slot that no partition owns was looked up. -/
  | unownedSlot (slot : Nat)
  /-- A place outside the arena was looked up. -/
  | arenaPlace (place : Nat)
  /-- More vacant places than places. -/
  | partitionCount
  /-- A block outside the graph was looked up. -/
  | block (block : Nat)
  deriving DecidableEq, Repr

end SparseQuantum
