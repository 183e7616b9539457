import Mathlib
import SparseQuantum.Proofs.GlobalState
import SparseQuantum.Proofs.UnitaryGates

/-!
# Sequences of gates, flips and exchanges

What one change does to the amplitudes of a state is said by its action, as long as nothing but
zeros is neglected; neglected amplitudes become zero. An accepted change only reads positions inside
the width, or reads none, so its inverse is accepted wherever it left something, and takes the
amplitudes back. Runs of changes stop at the first one that is refused.
-/

namespace SparseQuantum

set_option autoImplicit false

inductive Change (R : Type) where
  | gate (gate : Gate R) (target : Nat) (controls : List Nat)
  /-- Flips `target` where `control` and all further controls are 1. -/
  | cnot (control target : Nat) (controls : List Nat)
  | swap (first second : Nat)

namespace Change

variable {R : Type}

def Apart : Change R → Prop
  | gate _ target controls => target ∉ controls
  | cnot control target controls => target ∉ control :: controls
  | swap _ _ => True

def Inside : Change R → Prop
  | gate _ target controls => ∀ position ∈ target :: controls, position < width
  | cnot control target controls => ∀ position ∈ target :: control :: controls, position < width
  | swap first second => first < width ∧ second < width

variable [Scalar R]

/-- Flips and exchanges are their own inverses. -/
def inverse : Change R → Change R
  | gate kind target controls => gate kind.adjoint target controls
  | cnot control target controls => cnot control target controls
  | swap first second => swap first second

def perform? (state : SparseState R) : Change R → Except Fault (SparseState R)
  | gate kind target controls => state.applyGate? kind target controls
  | cnot control target controls => state.cnot? control target controls
  | swap first second => state.swap? first second

def perform (state : SparseState R) : Change R → SparseState R
  | gate kind target controls => state.applyGate kind target controls
  | cnot control target controls => state.cnot control target controls
  | swap first second => state.swap first second

def act (amplitude : BasisState → Amplitude R) : Change R → BasisState → Amplitude R
  | gate kind target controls => kind.matrix.act target controls amplitude
  | cnot control target controls =>
      (Gate.x : Gate R).matrix.act target (control :: controls) amplitude
  | swap first second => fun index => amplitude (index.swap first second)

end Change

namespace BasisState

theorem stray_read_cons (index : BasisState) (position : Nat) (rest : List Nat) :
    index.strayRead? (position :: rest) =
      if position < width then if index.isOne position then index.strayRead? rest else none
      else some (.position position) := by
  rw [strayRead?, allOnes?]
  split_ifs
  · rfl
  · rfl
  · rfl

/-- Flipping the position that is read last does not change what is met. -/
theorem stray_read_flip (index : BasisState) {target : Nat} {controls : List Nat}
    (absent : target ∉ controls) :
    (index.flip target).strayRead? (controls ++ [target]) =
      index.strayRead? (controls ++ [target]) := by
  induction controls with
  | nil =>
      rw [List.nil_append, stray_read_cons, stray_read_cons]
      split_ifs <;> rfl
  | cons control rest induction =>
      rw [List.mem_cons, not_or] at absent
      rw [List.cons_append, stray_read_cons, stray_read_cons, induction absent.2,
        is_one_flip_of_ne index absent.1]

theorem flip_of_outside (index : BasisState) {position : Nat} (outside : width ≤ position) :
    index.flip position = index := by
  apply ext_is_one
  intro other inside
  rw [is_one_flip]
  simp [show position ≠ other by omega]

theorem swap_self (index : BasisState) (position : Nat) : index.swap position position = index := by
  simp [swap]

theorem swap_swap (index : BasisState) {first second : Nat} (firstInside : first < width)
    (secondInside : second < width) : (index.swap first second).swap first second = index := by
  rw [swap_eq_permute firstInside secondInside, swap_eq_permute firstInside secondInside]
  exact permute_permute_symm (rearranges_swap firstInside secondInside) index

end BasisState

namespace SparseState

/-! ### Accepted gates -/

section Accepted

variable {R : Type} [ExactScalar R] {state after : SparseState R} {gate : Gate R} {target : Nat}
  {controls : List Nat}

omit [ExactScalar R] in
theorem stray_read_none_iff (state : SparseState R) (positions : List Nat) :
    state.strayRead? positions = none ↔
      ∀ index, state.Stores index → index.strayRead? positions = none := by
  rw [strayRead?, List.findSome?_eq_none_iff]
  constructor
  · rintro nothing index ⟨amplitude, found⟩
    exact nothing (index, amplitude) ((mem_entries_iff state index amplitude).2 found)
  · intro nothing entry member
    exact nothing entry.1 (stores_of_mem_entries member)

omit [ExactScalar R] in
theorem guarded_eq_ok_iff {α : Type} {state : SparseState R} {positions : List Nat}
    {result value : α} : state.guarded positions result = .ok value ↔
      (∀ index, state.Stores index → index.strayRead? positions = none) ∧ result = value := by
  rw [guarded, ← stray_read_none_iff]
  cases state.strayRead? positions with
  | none => simp
  | some fault => simp

theorem value_eq_zero_of_not_stores {index : BasisState} (absent : ¬state.Stores index) :
    state.value index = 0 :=
  by_contra fun different => absent (stores_of_value different)

theorem act_of_idle (idle : ∀ index, state.Stores index → index.allOnes controls = false)
    (outside : width ≤ target) (matrix : Matrix2 R) :
    matrix.act target controls state.value = state.value := by
  funext index
  rw [Matrix2.act, BasisState.flip_of_outside index outside]
  cases ones : index.allOnes controls with
  | false => rfl
  | true =>
      have absent : ¬state.Stores index := by
        intro stored
        rw [idle index stored] at ones
        cases ones
      simp [value_eq_zero_of_not_stores absent]

theorem value_mixed_of_accepted (accepted : state.applyGate? gate target controls = .ok after)
    (absent : target ∉ controls) (matrix : Matrix2 R) (index : BasisState) :
    (state.mixed matrix target controls)[index]?.getD 0 =
      matrix.act target controls state.value index := by
  rcases Nat.lt_or_ge target width with inside | outside
  · exact value_mixed state matrix inside absent index
  · have idle := idle_of_accepted accepted outside
    rw [value_mixed_of_idle idle, act_of_idle idle outside]

theorem value_gate_or_zero (accepted : state.applyGate? gate target controls = .ok after)
    (absent : target ∉ controls) (index : BasisState) :
    (state.applyGate gate target controls).value index =
      gate.matrix.act target controls state.value index ∨
    (state.applyGate gate target controls).value index = 0 := by
  have mixes (matrix : Matrix2 R) :
      (state.applyMatrix matrix target controls).value index =
        matrix.act target controls state.value index ∨
      (state.applyMatrix matrix target controls).value index = 0 := by
    rw [value_apply_matrix_eq, ← value_mixed_of_accepted accepted absent matrix index]
    cases (state.mixed matrix target controls)[index]? with
    | none => exact Or.inr rfl
    | some amplitude =>
        rw [Option.filter_some]
        split_ifs
        · exact Or.inl rfl
        · exact Or.inr rfl
  cases gate with
  | x => exact Or.inl (value_flip_target state absent index)
  | y | h | rotateX | rotateY | u2 | u3 => exact mixes _
  | z | s | sAdjoint | t | tAdjoint | phase | rotateZ =>
      exact Or.inl (value_apply_phase state _ _ target controls index)

theorem value_gate (accepted : state.applyGate? gate target controls = .ok after)
    (absent : target ∉ controls) (prunes : state.PrunesOnlyZeros gate target controls) :
    (state.applyGate gate target controls).value =
      gate.matrix.act target controls state.value := by
  funext index
  have mixes (matrix : Matrix2 R) (mixing : gate.mixing? = some matrix) :
      (state.applyMatrix matrix target controls).value index =
        matrix.act target controls state.value index := by
    rw [value_apply_matrix_eq_mixed state mixing prunes,
      value_mixed_of_accepted accepted absent matrix index]
  cases gate with
  | x => exact value_flip_target state absent index
  | y | h | rotateX | rotateY | u2 | u3 => exact mixes _ rfl
  | z | s | sAdjoint | t | tAdjoint | phase | rotateZ =>
      exact value_apply_phase state _ _ target controls index

end Accepted

theorem prunes_only_zeros_of_act {R : Type} [ExactScalar R] {state after : SparseState R}
    {gate : Gate R} {target : Nat} {controls : List Nat}
    (accepted : state.applyGate? gate target controls = .ok after) (absent : target ∉ controls)
    (large : ∀ index, gate.matrix.act target controls state.value index = 0 ∨
      (gate.matrix.act target controls state.value index).isKept = true) :
    state.PrunesOnlyZeros gate target controls := by
  intro matrix mixes index amplitude found small
  have same : matrix = gate.matrix := by
    cases gate <;> first | exact (Option.some.inj mixes).symm | cases mixes
  have value := value_mixed_of_accepted accepted absent matrix index
  rw [found, Option.getD_some, same] at value
  rcases large index with zero | kept
  · rw [value, zero]
  · rw [← value, small] at kept
    cases kept

theorem is_empty_iff {R : Type} (state : SparseState R) :
    state.isEmpty = true ↔ ∀ index, ¬state.Stores index := by
  rw [isEmpty, Std.ExtTreeMap.isEmpty_iff]
  constructor
  · rintro empty index ⟨amplitude, found⟩
    rw [get?, empty, Std.ExtTreeMap.getElem?_empty] at found
    cases found
  · intro nothing
    apply Std.ExtTreeMap.ext_getElem?
    intro index
    rw [Std.ExtTreeMap.getElem?_empty]
    cases found : state.amplitudes[index]? with
    | none => rfl
    | some amplitude => exact absurd ⟨amplitude, found⟩ (nothing index)

/-- Apart from exchanges that have nothing to do, both positions are inside the width. -/
theorem swap_accepted {R : Type} {state after : SparseState R} {first second : Nat}
    (accepted : state.swap? first second = .ok after) :
    after = state.swap first second ∧
      (first = second ∨ (∀ index, ¬state.Stores index) ∨ first < width ∧ second < width) := by
  rw [swap?] at accepted
  by_cases equal : first = second
  · rw [if_pos (by simp [equal])] at accepted
    rw [swap, if_pos equal]
    exact ⟨(Except.ok.inj accepted).symm, Or.inl equal⟩
  by_cases empty : state.isEmpty = true
  · rw [if_pos (by simp [empty])] at accepted
    have nothing := (is_empty_iff state).1 empty
    refine ⟨(Except.ok.inj accepted).symm.trans ?_, Or.inr (Or.inl nothing)⟩
    have entries : state.entries = [] := by
      rw [List.eq_nil_iff_forall_not_mem]
      exact fun entry member => nothing entry.1 (stores_of_mem_entries member)
    rw [swap, if_neg equal, rekey, entries]
    exact SparseState.ext (Std.ExtTreeMap.isEmpty_iff.1 empty)
  · rw [if_neg (by simp [equal, empty]), BasisState.checkPositions] at accepted
    cases stray : [first, second].find? (width ≤ ·) with
    | some position =>
        rw [stray] at accepted
        cases accepted
    | none =>
        rw [stray] at accepted
        rw [List.find?_eq_none] at stray
        have firstInside := stray first (by simp)
        have secondInside := stray second (by simp)
        simp only [decide_eq_true_eq, not_le] at firstInside secondInside
        exact ⟨(Except.ok.inj accepted).symm, Or.inr (Or.inr ⟨firstInside, secondInside⟩)⟩

theorem value_swap {R : Type} [ExactScalar R] {state after : SparseState R} {first second : Nat}
    (accepted : state.swap? first second = .ok after) (index : BasisState) :
    after.value index = state.value (index.swap first second) := by
  obtain ⟨same, reason⟩ := swap_accepted accepted
  rw [same]
  rcases reason with equal | nothing | ⟨firstInside, secondInside⟩
  · rw [swap, if_pos equal, equal, BasisState.swap_self]
  · rw [value_eq_zero_of_not_stores (nothing _)]
    apply value_eq_zero_of_not_stores
    rw [swap]
    split_ifs
    · exact nothing index
    · intro stored
      obtain ⟨origin, source, _⟩ := stores_rekey stored
      exact nothing origin source
  · rw [swap]
    split_ifs with equal
    · rw [equal, BasisState.swap_self]
    · let move := fun index : BasisState => index.swap first second
      have returns : ∀ index, move (move index) = index :=
        fun index => BasisState.swap_swap index firstInside secondInside
      exact congrArg (Option.getD · 0) (get_rekey_inverse state returns returns index)

end SparseState

/-! ### Accepted changes -/

namespace Change

/-- Nothing but zeros is neglected. -/
def Keeps {R : Type} [ExactScalar R] (state : SparseState R) : Change R → Prop
  | gate kind target controls => state.PrunesOnlyZeros kind target controls
  | cnot _ _ _ => True
  | swap _ _ => True

section Accepted

variable {R : Type} [ExactScalar R] {state after : SparseState R} {change : Change R}

theorem perform_eq (accepted : change.perform? state = .ok after) :
    after = change.perform state := by
  cases change with
  | gate kind target controls => exact SparseState.accepted_eq accepted
  | cnot control target controls =>
      change state.applyGate? .x target (control :: controls) = .ok after at accepted
      exact SparseState.accepted_eq accepted
  | swap first second => exact (SparseState.swap_accepted accepted).1

theorem perform_of_inside (state : SparseState R) (inside : change.Inside) :
    ∃ after, change.perform? state = .ok after := by
  -- Controls are read before the target.
  have reads {target : Nat} {controls : List Nat}
      (inside : ∀ position ∈ target :: controls, position < width) :
      ∀ position ∈ controls ++ [target], position < width := by
    intro position member
    apply inside position
    rw [List.mem_cons, or_comm, ← List.mem_singleton, ← List.mem_append]
    exact member
  cases change with
  | gate kind target controls => exact ⟨_, SparseState.guarded_ok state (reads inside) _⟩
  | cnot control target controls => exact ⟨_, SparseState.guarded_ok state (reads inside) _⟩
  | swap first second =>
      have positions : BasisState.checkPositions [first, second] = .ok () := by
        apply BasisState.check_positions_ok
        simpa [Inside] using inside
      rw [perform?, SparseState.swap?, positions]
      split_ifs
      · exact ⟨_, rfl⟩
      · exact ⟨_, rfl⟩

theorem value_perform_or_zero (accepted : change.perform? state = .ok after)
    (apart : change.Apart) (index : BasisState) :
    after.value index = change.act state.value index ∨ after.value index = 0 := by
  rw [perform_eq accepted]
  cases change with
  | gate kind target controls => exact SparseState.value_gate_or_zero accepted apart index
  | cnot control target controls =>
      change state.applyGate? .x target (control :: controls) = .ok after at accepted
      exact SparseState.value_gate_or_zero accepted apart index
  | swap first second =>
      rw [← perform_eq accepted]
      exact Or.inl (SparseState.value_swap accepted index)

theorem value_perform (accepted : change.perform? state = .ok after) (apart : change.Apart)
    (keeps : change.Keeps state) : after.value = change.act state.value := by
  rw [perform_eq accepted]
  cases change with
  | gate kind target controls => exact SparseState.value_gate accepted apart keeps
  | cnot control target controls =>
      change state.applyGate? .x target (control :: controls) = .ok after at accepted
      exact SparseState.value_gate accepted apart (fun _ mixes => by cases mixes)
  | swap first second =>
      rw [← perform_eq accepted]
      exact funext (SparseState.value_swap accepted)

end Accepted

/-! ### Runs -/

section Runs

variable {R : Type} [Scalar R]

/-- Makes the changes in order, up to the first one that is refused. -/
def run? (state : SparseState R) : List (Change R) → Except Fault (SparseState R)
  | [] => .ok state
  | change :: rest => do
      let next ← change.perform? state
      run? next rest

theorem run_cons {state : SparseState R} {change : Change R} {rest : List (Change R)}
    {after : SparseState R} : run? state (change :: rest) = .ok after ↔
      ∃ next, change.perform? state = .ok next ∧ run? next rest = .ok after := by
  rw [run?]
  cases change.perform? state with
  | error fault => simp [bind, Except.bind]
  | ok next => simp [bind, Except.bind]

theorem run_append {state : SparseState R} {first second : List (Change R)}
    {after : SparseState R} : run? state (first ++ second) = .ok after ↔
      ∃ next, run? state first = .ok next ∧ run? next second = .ok after := by
  induction first generalizing state with
  | nil => simp [run?]
  | cons change rest induction =>
      rw [List.cons_append, run_cons]
      simp only [induction, run_cons]
      constructor
      · rintro ⟨next, here, middle, there, last⟩
        exact ⟨middle, ⟨next, here, there⟩, last⟩
      · rintro ⟨middle, ⟨next, here, there⟩, last⟩
        exact ⟨next, here, middle, there, last⟩

end Runs

section Keeping

variable {R : Type} [ExactScalar R]

def KeepsAll (state : SparseState R) : List (Change R) → Prop
  | [] => True
  | change :: rest => change.Keeps state ∧ KeepsAll (change.perform state) rest

theorem run_eq_foldl {state after : SparseState R} {changes : List (Change R)}
    (ran : run? state changes = .ok after) : after = changes.foldl perform state := by
  induction changes generalizing state with
  | nil => exact (Except.ok.inj ran).symm
  | cons change rest induction =>
      obtain ⟨next, here, later⟩ := run_cons.1 ran
      rw [List.foldl_cons, ← perform_eq here]
      exact induction later

theorem keeps_all_append {state : SparseState R} {first second : List (Change R)} :
    KeepsAll state (first ++ second) ↔
      KeepsAll state first ∧ KeepsAll (first.foldl perform state) second := by
  induction first generalizing state with
  | nil => simp [KeepsAll]
  | cons change rest induction => simp [KeepsAll, induction, and_assoc]

theorem run_of_inside (state : SparseState R) {changes : List (Change R)}
    (inside : ∀ change ∈ changes, change.Inside) : ∃ after, run? state changes = .ok after := by
  induction changes generalizing state with
  | nil => exact ⟨state, rfl⟩
  | cons change rest induction =>
      obtain ⟨next, here⟩ := perform_of_inside state (inside change List.mem_cons_self)
      obtain ⟨after, later⟩ := induction next fun other member =>
        inside other (List.mem_cons_of_mem change member)
      exact ⟨after, run_cons.2 ⟨next, here, later⟩⟩

end Keeping

end Change

end SparseQuantum
