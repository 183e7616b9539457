import Mathlib
import SparseQuantum.Proofs.Entries
import SparseQuantum.Proofs.ExactArithmetic
import SparseQuantum.Proofs.Positions
import SparseQuantum.SparseState.Gates

/-!
# What a gate does to amplitudes

With exact arithmetic every gate, in whichever of the three ways it is applied, acts on the
amplitudes as its two-by-two matrix where all controls are 1 and leaves them alone elsewhere, as
long as nothing but zeros is neglected. States without stored zeros are determined by their
amplitudes.
-/

namespace SparseQuantum

set_option autoImplicit false

namespace BasisState

theorem flip_flip (index : BasisState) (position : Nat) :
    (index.flip position).flip position = index := by
  apply ext_is_one
  intro other _
  rw [is_one_flip, is_one_flip, Bool.xor_assoc, Bool.xor_self, Bool.xor_false]

theorem is_one_flip_self (index : BasisState) {position : Nat} (inside : position < width) :
    (index.flip position).isOne position = !index.isOne position := by
  rw [is_one_flip]
  simp [inside]

theorem is_one_flip_of_ne (index : BasisState) {position other : Nat}
    (different : position ≠ other) :
    (index.flip position).isOne other = index.isOne other := by
  rw [is_one_flip]
  simp [different]

theorem all_ones_flip (index : BasisState) {position : Nat} {positions : List Nat}
    (absent : position ∉ positions) :
    (index.flip position).allOnes positions = index.allOnes positions := by
  have pointwise : ∀ other ∈ positions,
      (index.flip position).isOne other = index.isOne other := by
    intro other member
    exact is_one_flip_of_ne index fun same => absent (by rw [same]; exact member)
  rw [allOnes, allOnes, Bool.eq_iff_iff, List.all_eq_true, List.all_eq_true]
  exact forall₂_congr fun other member => by rw [pointwise other member]

def flipWhere (target : Nat) (controls : List Nat) (index : BasisState) : BasisState :=
  if index.allOnes controls then index.flip target else index

theorem flip_where_flip_where {target : Nat} {controls : List Nat} (absent : target ∉ controls)
    (index : BasisState) : flipWhere target controls (flipWhere target controls index) = index := by
  by_cases ones : index.allOnes controls = true
  · rw [flipWhere, flipWhere, if_pos ones, all_ones_flip index absent, if_pos ones, flip_flip]
  · rw [flipWhere, flipWhere, if_neg ones, if_neg ones]

end BasisState

variable {R : Type}

namespace SparseState

/-- The amplitude of a basis state, zero where none is stored. -/
def value [Scalar R] (state : SparseState R) (index : BasisState) : Amplitude R :=
  (state.get? index).getD 0

def ZeroFree [Scalar R] (state : SparseState R) : Prop :=
  ∀ index amplitude, state.get? index = some amplitude → amplitude ≠ 0

theorem ext_value [Scalar R] {left right : SparseState R} (leftFree : left.ZeroFree)
    (rightFree : right.ZeroFree) (same : ∀ index, left.value index = right.value index) :
    left = right := by
  apply ext_get
  intro index
  have values := same index
  rw [value, value] at values
  cases leftFound : left.get? index with
  | none =>
      cases rightFound : right.get? index with
      | none => rfl
      | some amplitude =>
          rw [leftFound, rightFound] at values
          exact absurd values.symm (rightFree index amplitude rightFound)
  | some amplitude =>
      cases rightFound : right.get? index with
      | none =>
          rw [leftFound, rightFound] at values
          exact absurd values (leftFree index amplitude leftFound)
      | some other =>
          rw [leftFound, rightFound] at values
          exact congrArg some values

end SparseState

/-! ### Matrices of gates -/

namespace Matrix2

variable [Scalar R]

def diagonal (onZero onOne : Amplitude R) : Matrix2 R := ⟨onZero, 0, 0, onOne⟩

/-- The amplitudes once the matrix has been applied to `target` where all controls are 1. -/
def act (matrix : Matrix2 R) (target : Nat) (controls : List Nat)
    (amplitude : BasisState → Amplitude R) (index : BasisState) : Amplitude R :=
  if index.allOnes controls then
    if index.isOne target then
      matrix.d * amplitude index + matrix.c * amplitude (index.flip target)
    else matrix.a * amplitude index + matrix.b * amplitude (index.flip target)
  else amplitude index

end Matrix2

namespace Gate

variable [Scalar R]

/-- The matrix of a gate that mixes amplitudes, which can then become negligible. -/
def mixing? : Gate R → Option (Matrix2 R)
  | y => some .pauliY
  | h => some .hadamard
  | rotateX angle => some (.u3 angle (-Scalar.halfPi) Scalar.halfPi)
  | rotateY angle => some (.u3 angle 0 0)
  | u2 phi lambda => some (.u2 phi lambda)
  | u3 theta phi lambda => some (.u3 theta phi lambda)
  | _ => none

def matrix : Gate R → Matrix2 R
  | x => ⟨0, 1, 1, 0⟩
  | y => .pauliY
  | z => .diagonal 1 ⟨-1, 0⟩
  | h => .hadamard
  | s => .diagonal 1 ⟨0, 1⟩
  | sAdjoint => .diagonal 1 ⟨0, -1⟩
  | t => .diagonal 1 (.polar 1 Scalar.quarterPi)
  | tAdjoint => .diagonal 1 (.polar 1 (-Scalar.quarterPi))
  | phase angle => .diagonal 1 (.polar 1 angle)
  | rotateX angle => .u3 angle (-Scalar.halfPi) Scalar.halfPi
  | rotateY angle => .u3 angle 0 0
  | rotateZ angle =>
      .diagonal (.polar 1 (Scalar.half (-angle))) (.polar 1 (Scalar.half angle))
  | u2 phi lambda => .u2 phi lambda
  | u3 theta phi lambda => .u3 theta phi lambda

end Gate

/-! ### Moved and turned amplitudes -/

namespace SparseState

variable [ExactScalar R]

theorem value_flip_target (state : SparseState R) {target : Nat} {controls : List Nat}
    (absent : target ∉ controls) (index : BasisState) :
    (state.flipTarget target controls).value index =
      (Gate.x : Gate R).matrix.act target controls state.value index := by
  have returns := BasisState.flip_where_flip_where absent
  have read : (state.flipTarget target controls).value index =
      state.value (index.flipWhere target controls) :=
    congrArg (Option.getD · 0) (get_rekey_inverse state returns returns index)
  rw [read, Matrix2.act, BasisState.flipWhere]
  by_cases ones : index.allOnes controls = true
  · simp only [if_pos ones, Gate.matrix]
    split_ifs
    · rw [zero_mul, one_mul, zero_add]
    · rw [zero_mul, one_mul, zero_add]
  · simp only [if_neg ones]

theorem turned_eq (phase : Option (Amplitude R)) (amplitude : Amplitude R) :
    (match phase with
      | some phase => amplitude.mul phase
      | none => amplitude) = phase.getD 1 * amplitude := by
  cases phase with
  | none => exact (one_mul amplitude).symm
  | some phase => exact mul_comm amplitude phase

theorem value_apply_phase (state : SparseState R) (onZero onOne : Option (Amplitude R))
    (target : Nat) (controls : List Nat) (index : BasisState) :
    (state.applyPhase onZero onOne target controls).value index =
      (Matrix2.diagonal (onZero.getD 1) (onOne.getD 1)).act target controls state.value index := by
  rw [value, get_apply_phase, Matrix2.act, Matrix2.diagonal, value]
  by_cases ones : index.allOnes controls = true
  · simp only [if_pos ones, zero_mul, add_zero]
    cases state.get? index with
    | none => split_ifs <;> simp
    | some amplitude =>
        split_ifs
        · exact turned_eq onOne amplitude
        · exact turned_eq onZero amplitude
  · simp only [if_neg ones]
    cases state.get? index <;> rfl

/-! ### Mixed amplitudes -/

def mixed (state : SparseState R) (matrix : Matrix2 R) (target : Nat) (controls : List Nat) :
    Amplitudes R :=
  (state.entries.flatMap (contributions matrix target controls)).foldl
    (fun amplitudes part => amplitudes.accumulate part.1 part.2) .empty

def partAt (parts : List (BasisState × Amplitude R)) (index : BasisState) : Amplitude R :=
  (parts.map fun part => if part.1 = index then part.2 else 0).sum

theorem get_foldl_accumulate (parts : List (BasisState × Amplitude R)) (start : Amplitudes R)
    (index : BasisState) :
    (parts.foldl (fun amplitudes part => amplitudes.accumulate part.1 part.2) start)[index]?.getD
      0 = start[index]?.getD 0 + partAt parts index := by
  induction parts generalizing start with
  | nil => exact (add_zero _).symm
  | cons part rest induction =>
      rw [List.foldl_cons, induction, Amplitudes.get_accumulate, partAt, partAt, List.map_cons,
        List.sum_cons, ← add_assoc]
      congr 1
      split_ifs
      · rfl
      · exact (add_zero _).symm

theorem part_at_flat_map (entries : List (BasisState × Amplitude R))
    (spread : BasisState × Amplitude R → List (BasisState × Amplitude R)) (index : BasisState) :
    partAt (entries.flatMap spread) index =
      (entries.map fun entry => partAt (spread entry) index).sum := by
  induction entries with
  | nil => rfl
  | cons entry rest induction =>
      rw [List.flatMap_cons, List.map_cons, List.sum_cons, ← induction, partAt, partAt, partAt,
        List.map_append, List.sum_append]

theorem sum_entries_at (state : SparseState R) (index : BasisState)
    (weight : Amplitude R → Amplitude R) (nothing : weight 0 = 0) :
    (state.entries.map fun entry => if entry.1 = index then weight entry.2 else 0).sum =
      weight (state.value index) := by
  have absent (entries : List (BasisState × Amplitude R))
      (others : ∀ entry ∈ entries, entry.1 ≠ index) :
      (entries.map fun entry => if entry.1 = index then weight entry.2 else 0).sum = 0 := by
    apply List.sum_eq_zero
    intro term member
    obtain ⟨entry, source, same⟩ := List.mem_map.1 member
    rw [← same, if_neg (others entry source)]
  have present (entries : List (BasisState × Amplitude R)) (distinct : Amplitudes.Distinct entries)
      (amplitude : Amplitude R) (member : (index, amplitude) ∈ entries) :
      (entries.map fun entry => if entry.1 = index then weight entry.2 else 0).sum =
        weight amplitude := by
    induction entries with
    | nil => exact absurd member List.not_mem_nil
    | cons entry rest induction =>
        obtain ⟨different, restDistinct⟩ := List.pairwise_cons.1 distinct
        rw [List.map_cons, List.sum_cons]
        rcases List.mem_cons.1 member with first | later
        · rw [← first, if_pos rfl, absent rest, add_zero]
          intro other source same
          apply different other source
          rw [← first, same]
        · rw [if_neg (different _ later), zero_add, induction restDistinct later]
  rw [value]
  cases found : state.get? index with
  | none =>
      rw [absent, Option.getD_none, nothing]
      intro entry member same
      have stored := (mem_entries_iff state entry.1 entry.2).1 member
      rw [same, found] at stored
      exact absurd stored (by simp)
  | some amplitude =>
      exact present state.entries state.entries_distinct amplitude
        ((mem_entries_iff state index amplitude).2 found)

/-- What stays at a basis state when the matrix is applied, as a factor of its amplitude. -/
def stays (matrix : Matrix2 R) (target : Nat) (controls : List Nat) (index : BasisState) :
    Amplitude R :=
  if index.allOnes controls then if index.isOne target then matrix.d else matrix.a else 1

/-- What arrives at a basis state from the one with the other value of the target. -/
def arrives (matrix : Matrix2 R) (target : Nat) (controls : List Nat) (index : BasisState) :
    Amplitude R :=
  if index.allOnes controls then if index.isOne target then matrix.c else matrix.b else 0

theorem act_eq (matrix : Matrix2 R) (target : Nat) (controls : List Nat)
    (amplitude : BasisState → Amplitude R) (index : BasisState) :
    matrix.act target controls amplitude index =
      stays matrix target controls index * amplitude index +
        arrives matrix target controls index * amplitude (index.flip target) := by
  rw [Matrix2.act, stays, arrives]
  split_ifs
  · rfl
  · rfl
  · rw [one_mul, zero_mul, add_zero]

theorem part_at_unless_zero (factor amplitude : Amplitude R) (place index : BasisState) :
    partAt (if factor.isZero then [] else [(place, amplitude.mul factor)]) index =
      if place = index then factor * amplitude else 0 := by
  by_cases nothing : factor.isZero = true
  · rw [if_pos nothing, (Amplitude.is_zero_iff factor).1 nothing, zero_mul, ite_self]
    rfl
  · rw [if_neg nothing, partAt, List.map_singleton, List.sum_singleton]
    exact if_congr Iff.rfl (mul_comm amplitude factor) rfl

theorem part_at_contributions (matrix : Matrix2 R) {target : Nat} {controls : List Nat}
    (inside : target < width) (absent : target ∉ controls) (entry : BasisState × Amplitude R)
    (index : BasisState) :
    partAt (contributions matrix target controls entry) index =
      (if entry.1 = index then stays matrix target controls index * entry.2 else 0) +
        if entry.1 = index.flip target then arrives matrix target controls index * entry.2
        else 0 := by
  rcases entry with ⟨origin, amplitude⟩
  have turned : origin.flip target = index ↔ origin = index.flip target := by
    constructor
    · intro same
      rw [← same, BasisState.flip_flip]
    · intro same
      rw [same, BasisState.flip_flip]
  by_cases ones : origin.allOnes controls = true
  · have split : partAt (contributions matrix target controls (origin, amplitude)) index =
        (if origin = index then
          (if origin.isOne target then matrix.d else matrix.a) * amplitude else 0) +
        if origin = index.flip target then
          (if origin.isOne target then matrix.b else matrix.c) * amplitude else 0 := by
      rw [contributions, if_pos ones, Matrix2.column]
      by_cases one : origin.isOne target = true
      · simp only [if_pos one]
        rw [partAt, List.map_append, List.sum_append]
        change partAt _ index + partAt _ index = _
        rw [part_at_unless_zero, part_at_unless_zero, add_comm]
        simp only [turned]
      · simp only [if_neg one]
        rw [partAt, List.map_append, List.sum_append]
        change partAt _ index + partAt _ index = _
        rw [part_at_unless_zero, part_at_unless_zero]
        simp only [turned]
    rw [split]
    congr 1
    · refine if_ctx_congr Iff.rfl (fun here => ?_) (fun _ => rfl)
      rw [stays, ← (show origin = index from here), if_pos ones]
    · refine if_ctx_congr Iff.rfl (fun there => ?_) (fun _ => rfl)
      have back : index = origin.flip target := (turned.2 there).symm
      rw [back, arrives, BasisState.all_ones_flip origin absent, if_pos ones,
        BasisState.is_one_flip_self origin inside]
      cases origin.isOne target <;> rfl
  · rw [contributions, if_neg ones, partAt, List.map_singleton, List.sum_singleton]
    have nothing : (if origin = index.flip target then
        arrives matrix target controls index * amplitude else 0) = 0 := by
      refine ite_eq_right_iff.2 fun there => ?_
      have back : index = origin.flip target := (turned.2 there).symm
      rw [back, arrives, BasisState.all_ones_flip origin absent, if_neg ones, zero_mul]
    rw [nothing, add_zero]
    refine if_ctx_congr Iff.rfl (fun here => ?_) (fun _ => rfl)
    rw [stays, ← (show origin = index from here), if_neg ones, one_mul]

theorem value_mixed (state : SparseState R) (matrix : Matrix2 R) {target : Nat}
    {controls : List Nat} (inside : target < width) (absent : target ∉ controls)
    (index : BasisState) :
    (state.mixed matrix target controls)[index]?.getD 0 =
      matrix.act target controls state.value index := by
  rw [mixed, get_foldl_accumulate, part_at_flat_map]
  simp only [part_at_contributions matrix inside absent]
  rw [List.sum_map_add, sum_entries_at state index (stays matrix target controls index * ·)
    (mul_zero _), sum_entries_at state (index.flip target)
    (arrives matrix target controls index * ·) (mul_zero _), act_eq]
  have start : (.empty : Amplitudes R)[index]?.getD 0 = 0 := by
    change (∅ : Amplitudes R)[index]?.getD 0 = 0
    rw [Std.ExtTreeMap.getElem?_empty, Option.getD_none]
  rw [start, zero_add]

/-- Nothing but zeros is neglected when the gate is applied. -/
def PrunesOnlyZeros (state : SparseState R) (gate : Gate R) (target : Nat) (controls : List Nat) :
    Prop :=
  ∀ matrix, gate.mixing? = some matrix → ∀ (index : BasisState) (amplitude : Amplitude R),
    (state.mixed matrix target controls)[index]? = some amplitude → amplitude.isKept = false →
      amplitude = 0

/-- An amplitude that is mixed is what the matrix makes of the old ones, or was neglected. -/
theorem value_apply_matrix_eq (state : SparseState R) (matrix : Matrix2 R) (target : Nat)
    (controls : List Nat) (index : BasisState) :
    (state.applyMatrix matrix target controls).value index =
      (((state.mixed matrix target controls)[index]?).filter Amplitude.isKept).getD 0 :=
  congrArg (Option.getD · 0) (get_of_amplitudes (state.mixed matrix target controls) index)

/-- When only zeros are neglected, applying the matrix gives what mixing by it gives. -/
theorem value_apply_matrix_eq_mixed (state : SparseState R) {gate : Gate R} {matrix : Matrix2 R}
    (mixes : gate.mixing? = some matrix) {target : Nat} {controls : List Nat}
    (prunes : state.PrunesOnlyZeros gate target controls) (index : BasisState) :
    (state.applyMatrix matrix target controls).value index =
      (state.mixed matrix target controls)[index]?.getD 0 := by
  rw [value_apply_matrix_eq]
  cases found : (state.mixed matrix target controls)[index]? with
  | none => rfl
  | some amplitude =>
      cases kept : amplitude.isKept with
      | true => rw [Option.filter_some, if_pos kept]
      | false =>
          rw [Option.filter_some, if_neg (by simp [kept]),
            prunes matrix mixes index amplitude found kept]
          rfl

/-- Every gate acts as its matrix, where all controls are 1. -/
theorem value_apply_gate (state : SparseState R) (gate : Gate R) {target : Nat}
    {controls : List Nat} (inside : target < width) (absent : target ∉ controls)
    (prunes : state.PrunesOnlyZeros gate target controls) (index : BasisState) :
    (state.applyGate gate target controls).value index =
      gate.matrix.act target controls state.value index := by
  cases gate with
  | x => exact value_flip_target state absent index
  | y | h | rotateX | rotateY | u2 | u3 =>
      exact (value_apply_matrix_eq_mixed state rfl prunes index).trans
        (value_mixed state _ inside absent index)
  | z | s | sAdjoint | t | tAdjoint | phase | rotateZ =>
      exact value_apply_phase state _ _ target controls index

end SparseState

end SparseQuantum
