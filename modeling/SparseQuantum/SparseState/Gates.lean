import SparseQuantum.Gate
import SparseQuantum.Gate.Matrix
import SparseQuantum.SparseState

/-!
Gates on a sparse state, each conditioned on a list of control positions that must all be 1. There
are three ways to apply one: moving amplitudes to other basis states, turning phases in place, and
mixing amplitudes by a matrix. Only the last one neglects small amplitudes.

The functions that end in `?` refuse a position outside the width, as soon as some basis state makes
them look at it.
-/

namespace SparseQuantum.SparseState

variable {R : Type} [Scalar R]

def flipTarget (state : SparseState R) (target : Nat) (controls : List Nat) : SparseState R :=
  state.rekey fun index => if index.allOnes controls then index.flip target else index

def cnot (state : SparseState R) (control target : Nat) (controls : List Nat) : SparseState R :=
  state.rekey fun index =>
    if index.isOne control && index.allOnes controls then index.flip target else index

def swap (state : SparseState R) (first second : Nat) : SparseState R :=
  if first = second then state else state.rekey fun index => index.swap first second

/-- Multiplies by the phase that the value of `target` selects, if it selects one. -/
def applyPhase (state : SparseState R) (onZero onOne : Option (Amplitude R)) (target : Nat)
    (controls : List Nat) : SparseState R :=
  ⟨state.amplitudes.map fun index amplitude =>
    if index.allOnes controls then
      match if index.isOne target then onOne else onZero with
      | some phase => amplitude.mul phase
      | none => amplitude
    else amplitude⟩

/-- What one entry contributes to the mixed state; zero matrix elements contribute nothing. -/
def contributions (matrix : Matrix2 R) (target : Nat) (controls : List Nat)
    (entry : BasisState × Amplitude R) : List (BasisState × Amplitude R) :=
  let (index, amplitude) := entry
  if index.allOnes controls then
    let (toZero, toOne) := matrix.column (index.isOne target)
    let (zero, one) :=
      if index.isOne target then (index.flip target, index) else (index, index.flip target)
    (if toZero.isZero then [] else [(zero, amplitude.mul toZero)]) ++
      (if toOne.isZero then [] else [(one, amplitude.mul toOne)])
  else [entry]

/-- Mixes the two values of `target` wherever all controls are 1. -/
def applyMatrix (state : SparseState R) (matrix : Matrix2 R) (target : Nat)
    (controls : List Nat) : SparseState R :=
  ofAmplitudes ((state.entries.flatMap (contributions matrix target controls)).foldl
    (fun amplitudes part => amplitudes.accumulate part.1 part.2) .empty)

def applyGate (state : SparseState R) (gate : Gate R) (target : Nat) (controls : List Nat) :
    SparseState R :=
  match gate with
  | .x => state.flipTarget target controls
  | .y => state.applyMatrix .pauliY target controls
  | .z => state.applyPhase none (some ⟨-1, 0⟩) target controls
  | .h => state.applyMatrix .hadamard target controls
  | .s => state.applyPhase none (some ⟨0, 1⟩) target controls
  | .sAdjoint => state.applyPhase none (some ⟨0, -1⟩) target controls
  | .t => state.applyPhase none (some (.polar 1 Scalar.quarterPi)) target controls
  | .tAdjoint => state.applyPhase none (some (.polar 1 (-Scalar.quarterPi))) target controls
  | .phase angle => state.applyPhase none (some (.polar 1 angle)) target controls
  | .rotateX angle =>
      state.applyMatrix (.u3 angle (-Scalar.halfPi) Scalar.halfPi) target controls
  | .rotateY angle => state.applyMatrix (.u3 angle 0 0) target controls
  | .rotateZ angle =>
      state.applyPhase (some (.polar 1 (Scalar.half (-angle))))
        (some (.polar 1 (Scalar.half angle))) target controls
  | .u2 phi lambda => state.applyMatrix (.u2 phi lambda) target controls
  | .u3 theta phi lambda => state.applyMatrix (.u3 theta phi lambda) target controls

def applyGate? (state : SparseState R) (gate : Gate R) (target : Nat) (controls : List Nat) :
    Except Fault (SparseState R) :=
  state.guarded (controls ++ [target]) (state.applyGate gate target controls)

def cnot? (state : SparseState R) (control target : Nat) (controls : List Nat) :
    Except Fault (SparseState R) :=
  state.guarded (control :: controls ++ [target]) (state.cnot control target controls)

/-- Both positions are read, whatever the first one holds. -/
def swap? (state : SparseState R) (first second : Nat) : Except Fault (SparseState R) :=
  if first = second || state.isEmpty then .ok state
  else do
    BasisState.checkPositions [first, second]
    .ok (state.swap first second)

end SparseQuantum.SparseState
