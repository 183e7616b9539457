import SparseQuantum.Random.Draws
import SparseQuantum.SparseState

/-!
Measuring one position: an outcome is chosen, the branch of the other outcome is dropped and the
remaining amplitudes are scaled up. A branch without probability is never chosen, and where only one
branch has probability no draw is consumed.
-/

namespace SparseQuantum.SparseState

variable {R : Type} [Scalar R]

/-- The outcome at `position` and the draws that are left. -/
def sample (state : SparseState R) (position : Nat) (draws : Draws) : Bool × Draws :=
  let zero := state.branchProbability position false
  let one := state.branchProbability position true
  if Scalar.isZero zero then (true, draws)
  else if Scalar.isZero one then (false, draws)
  else
    let (word, rest) := draws.next
    (Scalar.isLt (zero / (zero + one)) (Draws.uniform word), rest)

/-- Keeps the branch of `outcome` and scales it up; with `reset` the position becomes 0. -/
def collapse (state : SparseState R) (position : Nat) (outcome reset : Bool) : SparseState R :=
  let norm := Scalar.sqrt (state.branchProbability position outcome)
  ⟨.ofEntries ((state.entries.filter fun entry => entry.1.isOne position == outcome).map
    fun entry =>
      (if reset && outcome then entry.1.flip position else entry.1, entry.2.scaleDown norm))⟩

def measure (state : SparseState R) (position : Nat) (draws : Draws) :
    Bool × SparseState R × Draws :=
  let (outcome, rest) := state.sample position draws
  (outcome, state.collapse position outcome false, rest)

def measureAndReset (state : SparseState R) (position : Nat) (draws : Draws) :
    SparseState R × Draws :=
  let (outcome, rest) := state.sample position draws
  (state.collapse position outcome true, rest)

def measure? (state : SparseState R) (position : Nat) (draws : Draws) :
    Except Fault (Bool × SparseState R × Draws) :=
  state.guarded [position] (state.measure position draws)

def measureAndReset? (state : SparseState R) (position : Nat) (draws : Draws) :
    Except Fault (SparseState R × Draws) :=
  state.guarded [position] (state.measureAndReset position draws)

end SparseQuantum.SparseState
