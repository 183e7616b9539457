import SparseQuantum.SparseState.Gates

/-!
The canonical layout: given positions are brought to the front of a state by a chain of swaps, the
first one to position 0, the next to position 1, and so on. Whatever stood there moves to where the
wanted position was. Undoing the swaps in reverse order restores the state.
-/

namespace SparseQuantum.Layout

/-- The swaps that bring the positions to `place` and the places behind it, where `moved` tells
where what stood at a position stands by now. -/
def swapsFrom (moved : Nat → Nat) (place : Nat) : List Nat → List (Nat × Nat)
  | [] => []
  | position :: rest =>
      let current := moved position
      if current = place then swapsFrom moved (place + 1) rest
      else
        let onward := fun position =>
          let standing := moved position
          if standing = place then current else standing
        (place, current) :: swapsFrom onward (place + 1) rest

def swaps (positions : List Nat) : List (Nat × Nat) := swapsFrom id 0 positions

variable {R : Type} [Scalar R]

def exchange (state : SparseState R) : List (Nat × Nat) → Except Fault (SparseState R)
  | [] => .ok state
  | (first, second) :: rest => do exchange (← state.swap? first second) rest

def canonicalize (state : SparseState R) (positions : List Nat) : Except Fault (SparseState R) :=
  exchange state (swaps positions)

def restore (state : SparseState R) (positions : List Nat) : Except Fault (SparseState R) :=
  exchange state (swaps positions).reverse

end SparseQuantum.Layout
