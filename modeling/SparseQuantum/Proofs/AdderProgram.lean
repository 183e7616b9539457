import Mathlib
import SparseQuantum.Demo.Programs
import SparseQuantum.Proofs.LosslessRuns
import SparseQuantum.Proofs.ResolvedGraphs
import SparseQuantum.Proofs.SlotAccounting

/-!
# The program that adds

The program writes a value to a register of qubits by flipping those that are 1 in it, adds a
constant to the register, measures it and frees it. What is written is one basis state, or two that
differ in the least significant qubit, and as all their amplitudes are large the addition only moves
them. So each outcome of the measurement is the sum of a value that was written and the constant.
-/

namespace SparseQuantum

set_option autoImplicit false

open Simulator

/-! ### Constants as they are printed -/

namespace Text

theorem decimal_eq_of_digit_chars (digits : List Char) :
    decimal digits = Nat.ofDigitChars 10 digits 0 := by
  rw [decimal]
  generalize 0 = read
  induction digits generalizing read with
  | nil => rfl
  | cons digit rest induction =>
      rw [List.foldl_cons, Nat.ofDigitChars_cons, induction, Nat.mul_comm read]
      rfl

theorem writes_to_string (value : Int) : Writes (toString value).toList value := by
  have nonempty (number : Nat) : Nat.toDigits 10 number ≠ [] := Nat.toDigits_ne_nil
  have decimals (number : Nat) : (Nat.toDigits 10 number).all Char.isDigit = true :=
    List.all_eq_true.2 fun _ member => Nat.isDigit_of_mem_toDigits (by decide) (by decide) member
  have spells (number : Nat) : decimal (Nat.toDigits 10 number) = number := by
    rw [decimal_eq_of_digit_chars, Nat.ofDigitChars_ten_toDigits]
  rw [Int.toString_eq_repr, Int.repr_eq_if]
  split_ifs with nonneg
  · have written := @Writes.plain [] _ [] rfl rfl (nonempty value.toNat) (decimals value.toNat)
    rw [spells, List.nil_append, List.append_nil, Int.toNat_of_nonneg nonneg] at written
    rw [Nat.toList_repr]
    exact written
  · let magnitude := (-value).toNat
    have written := @Writes.negative [] _ [] rfl rfl (nonempty magnitude) (decimals magnitude)
    rw [spells, List.nil_append, List.append_nil, Int.toNat_of_nonneg (by omega),
      neg_neg] at written
    rw [String.toList_append, Nat.toList_repr]
    exact written

end Text

/-! ### Numbers in registers -/

namespace BasisState

theorem is_one_foldl_flip (slots : List Nat) (distinct : slots.Nodup) (start : BasisState)
    (position : Nat) :
    (slots.foldl flip start).isOne position =
      (start.isOne position ^^ decide (position ∈ slots ∧ position < width)) := by
  induction slots generalizing start with
  | nil => simp
  | cons slot rest induction =>
      obtain ⟨absent, distinctRest⟩ := List.nodup_cons.1 distinct
      rw [List.foldl_cons, induction distinctRest, is_one_flip]
      by_cases here : slot = position
      · subst here
        simp [absent]
      · simp [here, Ne.symm here]

/-- The basis state of a register of this many slots that holds the number, as far as it fits. -/
def holding (count value : Nat) : BasisState := zero.spell (List.range count) value

theorem number_at_holding {count : Nat} (bound : count ≤ width) (value : Nat) :
    (holding count value).numberAt (List.range count) = value % 2 ^ count := by
  have inside : ∀ slot ∈ List.range count, slot < width := fun slot member =>
    (List.mem_range.1 member).trans_le bound
  rw [holding, number_at_spell List.nodup_range inside, List.length_range]

/-- Flipping the slots where the number has a 1 leaves the register holding it. -/
theorem foldl_flip_holding {count : Nat} (bound : count ≤ width) (value : Nat) :
    ((List.range count).filter fun place => value.testBit (count - 1 - place)).foldl flip zero =
      holding count value := by
  let ones := (List.range count).filter fun place => value.testBit (count - 1 - place)
  have bits (position : Nat) : (ones.foldl flip zero).isOne position =
      (decide (position < count) && value.testBit (count - 1 - position)) := by
    rw [is_one_foldl_flip ones (List.nodup_range.filter _), is_one_zero]
    by_cases inside : position < count
    · simp [ones, inside, inside.trans_le bound]
    · simp [ones, inside]
  refine @ext_number_at _ _ (List.range count) (fun position _ outside => ?_) ?_
  · rw [bits, holding, is_one_spell_of_not_mem _ _ outside, is_one_zero,
      decide_eq_false fun inside => outside (List.mem_range.2 inside), Bool.false_and]
  · rw [number_at_holding bound]
    apply Nat.eq_of_testBit_eq
    intro place
    rw [test_bit_number_at, Nat.testBit_mod_two_pow]
    by_cases below : place < count
    · have listed : (List.range count).reverse[place]? = some (count - 1 - place) := by
        rw [List.getElem?_reverse (by simpa using below), List.length_range,
          List.getElem?_range (by omega)]
      have back : count - 1 - (count - 1 - place) = place := by omega
      have inside : count - 1 - place < count := by omega
      rw [listed, Option.map_some, Option.getD_some, bits, back, decide_eq_true inside,
        decide_eq_true below]
    · rw [List.getElem?_eq_none (by simpa using below), decide_eq_false below, Bool.false_and]
      rfl

/-- The last slot of a register decides on the least significant bit of its number. -/
theorem number_at_of_same_front {count : Nat} {left right : BasisState}
    (same : ∀ position < count, left.isOne position = right.isOne position) :
    left.numberAt (List.range (count + 1)) =
      2 * (right.numberAt (List.range (count + 1)) / 2) + (left.isOne count).toNat := by
  have front : left.numberAt (List.range count) = right.numberAt (List.range count) :=
    number_at_congr fun slot member => same slot (List.mem_range.1 member)
  have bit := Bool.toNat_le (right.isOne count)
  rw [List.range_succ, number_at_concat, number_at_concat, front]
  omega

end BasisState

namespace AdderProgram

/-! ### The program -/

section Qubits

theorem register_length (count : Nat) : (Demo.registerQubits count).length = count := by
  rw [Demo.registerQubits, List.length_map, List.length_range]

variable {count : Nat} (fits : count ≤ 64)

include fits

theorem register_distinct : (Demo.registerQubits count).Nodup := by
  refine List.Nodup.map_on (fun first firstMember second secondMember same => ?_) List.nodup_range
  rw [List.mem_range] at firstMember secondMember
  have size : UInt64.size = 18446744073709551616 := rfl
  have numbers := congrArg (fun qubit : QubitId => qubit.number.toNat) same
  rw [UInt64.toNat_ofNat_of_lt' (by omega), UInt64.toNat_ofNat_of_lt' (by omega)] at numbers
  exact numbers

theorem idx_of_register {place : Nat} (inside : place < count) :
    (Demo.registerQubits count).idxOf ⟨.ofNat place⟩ = place := by
  have listed : place < (Demo.registerQubits count).length := by
    rw [register_length]
    exact inside
  have counted := (register_distinct fits).idxOf_getElem place listed
  simpa [Demo.registerQubits] using counted

theorem map_idx_of_register :
    (Demo.registerQubits count).map (Demo.registerQubits count).idxOf = List.range count := by
  conv_lhs => arg 2; rw [Demo.registerQubits]
  rw [List.map_map]
  refine (List.map_congr_left fun place member => ?_).trans (List.map_id _)
  exact idx_of_register fits (List.mem_range.1 member)

theorem map_idx_of_ones (value : UInt64) :
    (Demo.onesOf count value).map (Demo.registerQubits count).idxOf =
      (List.range count).filter fun place => value.toNat.testBit (count - 1 - place) := by
  rw [Demo.onesOf, List.map_filterMap, ← List.filterMap_eq_filter]
  refine List.filterMap_congr fun place member => ?_
  rw [Option.guard]
  split_ifs
  · rw [Option.map_some, idx_of_register fits (List.mem_range.1 member)]
  · rfl

end Qubits

section Program

variable {R : Type} (count : Nat) (value : UInt64) (offset : Int64) (superpose : Bool)

def circuit : List (GateCall R) :=
  (Demo.onesOf count value).map (fun qubit => ⟨.x, qubit, []⟩) ++
    if superpose then
      (Demo.registerQubits count).getLast?.toList.map fun qubit => ⟨.h, qubit, []⟩
    else []

theorem circuit_within : ∀ call ∈ (circuit count value superpose : List (GateCall R)),
    call.Within (Demo.registerQubits count) := by
  have alone {call : GateCall R} (target : call.target ∈ Demo.registerQubits count)
      (free : call.controls = []) : call.Within (Demo.registerQubits count) := by
    rw [GateCall.Within, free]
    exact ⟨List.nodup_singleton _, List.cons_subset.2 ⟨target, List.nil_subset _⟩⟩
  intro call member
  rcases List.mem_append.1 member with flips | spreads
  · obtain ⟨qubit, listed, rfl⟩ := List.mem_map.1 flips
    obtain ⟨place, inside, one⟩ := List.mem_filterMap.1 listed
    split_ifs at one
    exact alone (List.mem_map.2 ⟨place, inside, Option.some.inj one⟩) rfl
  · split_ifs at spreads
    · obtain ⟨qubit, listed, rfl⟩ := List.mem_map.1 spreads
      exact alone (List.mem_of_getLast? (Option.mem_toList.1 listed)) rfl
    · cases spreads

def instructions : List (Instruction R) :=
  (Demo.registerQubits count).map (Instruction.alloc · false) ++
    ((circuit count value superpose).map GateCall.instruction ++
      ([.plugin "add" (Demo.registerQubits count) (toString offset.toInt) false [],
        .measure (Demo.registerQubits count) Demo.outcomeRegister] ++
        (Demo.registerQubits count).map (Instruction.free · false)))

def graph : BlockGraph R where
  blocks := [⟨"main", instructions count value offset superpose, .stop⟩]
  entry := 0
  last := 0

variable {count}

theorem resolve_statements (fits : count ≤ 64) :
    List.Forall₂ (fun (statement : Statement R) instruction =>
      statement.resolve "main" = .ok instruction)
      ((Demo.registerQubits count).map (Statement.alloc · false) ++
        (Demo.onesOf count value).map Demo.flip ++
        (if superpose then Demo.spread count else []) ++
        [.plugin "add" (Demo.registerQubits count) (toString offset.toInt) false [],
          .measure (Demo.registerQubits count) Demo.outcomeRegister] ++
        (Demo.registerQubits count).map (Statement.free · false))
      (instructions count value offset superpose) := by
  have alike {statement : QubitId → Statement R} {instruction : QubitId → Instruction R}
      (resolves : ∀ qubit, (statement qubit).resolve "main" = .ok (instruction qubit))
      (qubits : List QubitId) :
      List.Forall₂ (fun (statement : Statement R) instruction =>
        statement.resolve "main" = .ok instruction)
        (qubits.map statement) (qubits.map instruction) :=
    List.forall₂_map_left_iff.2 (List.forall₂_map_right_iff.2
      (List.forall₂_same.2 fun qubit _ => resolves qubit))
  have flips (qubit : QubitId) :
      (Demo.flip qubit : Statement R).resolve "main" = .ok (.gate .x qubit []) := by cbv
  have spreads (qubit : QubitId) :
      (.gate "H" [] qubit [] : Statement R).resolve "main" = .ok (.gate .h qubit []) := by cbv
  have narrow : ¬registerBits < (Demo.registerQubits count).length := by
    rw [register_length, registerBits]
    omega
  simp only [List.append_assoc, instructions, circuit, List.map_append]
  refine List.rel_append (alike (fun _ => rfl) _) (List.rel_append ?_ (List.rel_append ?_
    (List.Forall₂.cons rfl (List.Forall₂.cons (if_neg narrow) (alike (fun _ => rfl) _)))))
  · rw [List.map_map]
    exact alike flips _
  · cases superpose
    · exact .nil
    · rw [if_pos rfl, if_pos rfl, List.map_map]
      exact alike spreads _

theorem resolve_adder (fits : count ≤ 64) :
    (Demo.adder count value offset superpose : Program R).resolve =
      .ok (graph count value offset superpose) := by
  have resolved := map_m_of_forall₂ (resolve_statements (R := R) value offset superpose fits)
  have labels : (Demo.adder count value offset superpose : Program R).labels = ["main"] := rfl
  have entry : ["main"].idxOf? "main" = some 0 := by decide
  have single : Program.firstRepeat? [] ["main"] = none := by decide
  rw [Program.resolve, labels, single]
  simp only [Demo.adder, entry, Program.resolveBlocks, Program.resolveEnding, resolved]
  rfl

end Program

/-! ### What is written -/

/-- All the amplitude is at one basis state. -/
def pureAt {R : Type} [Scalar R] (index other : BasisState) : Amplitude R :=
  if other = index then 1 else 0

section Flips

variable {R : Type} [ExactScalar R] (qubits : List QubitId)

theorem act_flip (qubit : QubitId) (index : BasisState) :
    GateCall.act qubits ⟨.x, qubit, []⟩ (pureAt index : BasisState → Amplitude R) =
      pureAt (index.flip (qubits.idxOf qubit)) := by
  funext other
  have moved : (other.flip (qubits.idxOf qubit) = index) =
      (other = index.flip (qubits.idxOf qubit)) :=
    propext ⟨fun same => by rw [← same, BasisState.flip_flip],
      fun same => by rw [same, BasisState.flip_flip]⟩
  rw [GateCall.act, Matrix2.act, List.map_nil, if_pos (show other.allOnes [] = true from rfl)]
  simp only [Gate.matrix, pureAt, zero_mul, one_mul, zero_add, ite_self, moved]

theorem act_flips (flipped : List QubitId) (index : BasisState) :
    actAll qubits (flipped.map fun qubit => ⟨.x, qubit, []⟩)
      (pureAt index : BasisState → Amplitude R) =
      pureAt ((flipped.map qubits.idxOf).foldl BasisState.flip index) := by
  induction flipped generalizing index with
  | nil => rfl
  | cons qubit rest induction =>
      rw [List.map_cons, actAll, List.foldl_cons, act_flip]
      exact induction _

theorem spares_flips (flipped : List QubitId) (amplitude : BasisState → Amplitude R) :
    SparesAll qubits (flipped.map fun qubit => ⟨.x, qubit, []⟩) amplitude := by
  induction flipped generalizing amplitude with
  | nil => trivial
  | cons qubit rest induction => exact ⟨Or.inl rfl, induction _⟩

end Flips

/-- The numbers that are written: the value, as far as it fits, or with either least significant
bit. -/
def Written (count : Nat) (value : UInt64) (superpose : Bool) (number : Nat) : Prop :=
  if superpose then ∃ low : Bool, number = 2 * (value.toNat % 2 ^ count / 2) + low.toNat
  else number = value.toNat % 2 ^ count

/-- The number is the sum, modulo the range of the register, of a number that is written and the
constant. -/
def IsSum (count : Nat) (value : UInt64) (offset : Int64) (superpose : Bool) (sum : Nat) : Prop :=
  ∃ number, Written count value superpose number ∧
    (sum : Int) = (number + offset.toInt) % (2 ^ count : Nat)

/-- Wherever there is amplitude it is large, and the register holds one of the written numbers. -/
structure Holds (count : Nat) (value : UInt64) (superpose : Bool)
    (amplitude : BasisState → Amplitude ℝ) : Prop where
  large : ∀ index, amplitude index = 0 ∨ 1 / 2 ≤ (amplitude index).normSq
  written : ∀ index, amplitude index ≠ 0 →
    Written count value superpose (index.numberAt (List.range count))

theorem holds_pure {count : Nat} (bound : count ≤ width) (value : UInt64) :
    Holds count value false (pureAt (.holding count value.toNat)) where
  large index := by
    rw [pureAt]
    split_ifs
    · exact Or.inr (by norm_num [Amplitude.norm_sq_eq, Amplitude.one_re, Amplitude.one_im])
    · exact Or.inl rfl
  written index different := by
    rw [pureAt] at different
    split_ifs at different with here
    · rw [here]
      exact BasisState.number_at_holding bound value.toNat
    · exact absurd rfl different

theorem act_pure {R : Type} [ExactScalar R] (matrix : Matrix2 R) {target : Nat}
    (inside : target < width) (index other : BasisState) :
    matrix.act target [] (pureAt index) other =
      if other = index then if index.isOne target then matrix.d else matrix.a
      else if other = index.flip target then if index.isOne target then matrix.b else matrix.c
      else 0 := by
  have turned := BasisState.is_one_flip_self index inside
  have apart : index.flip target ≠ index := fun same => by
    rw [same] at turned
    exact absurd turned.symm (Bool.not_ne_self _)
  rw [Matrix2.act, if_pos (show other.allOnes [] = true from rfl)]
  by_cases here : other = index
  · subst here
    simp [pureAt, apart]
  · by_cases there : other = index.flip target
    · subst there
      simp only [pureAt, apart, BasisState.flip_flip, turned]
      cases index.isOne target <;> simp
    · have away : other.flip target ≠ index := fun same =>
        there (by rw [← same, BasisState.flip_flip])
      simp [pureAt, here, there, away]

theorem holds_spread {count : Nat} (positive : 0 < count) (bound : count ≤ width) (value : UInt64) :
    Holds count value true
      (Matrix2.act .hadamard (count - 1) [] (pureAt (.holding count value.toNat))) := by
  let index := BasisState.holding count value.toNat
  have inside : count - 1 < width := by omega
  have entry : (⟨Scalar.invSqrtTwo, 0⟩ : Amplitude ℝ).normSq = 1 / 2 := by
    rw [Amplitude.norm_sq_eq, ExactAngles.inv_sqrt_two_mul_self, mul_zero, add_zero]
  have negated : (⟨Scalar.invSqrtTwo, 0⟩ : Amplitude ℝ).neg.normSq = 1 / 2 := by
    rw [← entry, Amplitude.norm_sq_eq, Amplitude.norm_sq_eq, Amplitude.neg]
    ring
  refine ⟨fun other => ?_, fun other different => ?_⟩
  · rw [act_pure _ inside]
    simp only [Matrix2.hadamard]
    split_ifs
    · exact Or.inr (le_of_eq negated.symm)
    · exact Or.inr (le_of_eq entry.symm)
    · exact Or.inr (le_of_eq entry.symm)
    · exact Or.inr (le_of_eq entry.symm)
    · exact Or.inl rfl
  · -- Only the last slot can differ, and the number there is the least significant bit.
    have front : ∀ position < count - 1, other.isOne position = index.isOne position := by
      intro position before
      rw [act_pure _ inside] at different
      split_ifs at different with here _ there
      · rw [here]
      · rw [here]
      · rw [there, BasisState.is_one_flip_of_ne _ (by omega)]
      · rw [there, BasisState.is_one_flip_of_ne _ (by omega)]
      · exact absurd rfl different
    have number := BasisState.number_at_of_same_front front
    rw [Nat.sub_add_cancel positive, BasisState.number_at_holding bound] at number
    exact ⟨other.isOne (count - 1), number⟩

/-- The circuit writes the value, and does so without neglecting anything but zeros. -/
theorem circuit_holds {count : Nat} (positive : 0 < count) (fits : count ≤ 64) (value : UInt64)
    (superpose : Bool) :
    SparesAll (Demo.registerQubits count) (circuit count value superpose)
      (SparseState.ground : SparseState ℝ).value ∧
    Holds count value superpose
      (actAll (Demo.registerQubits count) (circuit count value superpose)
        SparseState.ground.value) := by
  have bound : count ≤ width := fits.trans (by decide)
  have ground : (SparseState.ground : SparseState ℝ).value = pureAt .zero :=
    funext SparseState.value_ground
  have flipped : actAll (Demo.registerQubits count)
      ((Demo.onesOf count value).map fun qubit => ⟨.x, qubit, []⟩)
      (SparseState.ground : SparseState ℝ).value = pureAt (.holding count value.toNat) := by
    rw [ground, act_flips, map_idx_of_ones fits, BasisState.foldl_flip_holding bound]
  have spares := spares_flips (R := ℝ) (Demo.registerQubits count) (Demo.onesOf count value)
    SparseState.ground.value
  simp only [circuit, act_all_append, spares_all_append_iff, flipped]
  cases superpose with
  | false =>
      rw [if_neg Bool.false_ne_true, actAll, List.foldl_nil]
      exact ⟨⟨spares, trivial⟩, holds_pure bound value⟩
  | true =>
      have last : (Demo.registerQubits count).getLast? = some ⟨.ofNat (count - 1)⟩ := by
        rw [Demo.registerQubits, List.getLast?_map, List.getLast?_range, if_neg (by omega)]
        rfl
      have place := idx_of_register fits (Nat.sub_lt positive Nat.one_pos)
      have spread := holds_spread positive bound value
      rw [if_pos rfl, last]
      simp only [Option.toList_some, List.map_cons, List.map_nil, SparesAll, actAll,
        List.foldl_cons, List.foldl_nil, GateCall.act, place, and_true]
      refine ⟨⟨spares, Or.inr fun index => ?_⟩, spread⟩
      exact (spread.large index).imp_right Change.real_kept_of_half

/-! ### The run -/

theorem resolve_add {R : Type} [Scalar R] (searchPath : String) :
    (Registry.ofSearchPath searchPath : Registry R).resolve "add" = .ok AddConstant.plugin := by
  have found : (Registry.ofSearchPath searchPath : Registry R).plugins["add"]? =
      some AddConstant.plugin := (get_insert _ _ _ _).trans (if_pos rfl)
  rw [Registry.resolve, found]

section Run

variable {count : Nat} (positive : 0 < count) (fits : count ≤ 64) {value : UInt64} (offset : Int64)
  {superpose : Bool}

include fits

theorem found_of_laid_out {R : Type} {simulator : Simulator R}
    (laidOut : simulator.LaidOut (Demo.registerQubits count)) :
    simulator.Operands (Demo.registerQubits count) (List.range count) := by
  rw [← map_idx_of_register fits]
  exact laidOut.operands (register_distinct fits) (List.Subset.refl _)

variable (registry : Registry ℝ) (known : registry.resolve "add" = .ok AddConstant.plugin)
  (label : String) {state : RunState ℝ} (physical : state.simulator.Physical)
  (laidOut : state.simulator.LaidOut (Demo.registerQubits count))

include physical laidOut

include positive known in
/-- The addition leaves sums of the numbers that were written. -/
theorem add_runs (holds : Holds count value superpose state.simulator.globalState.value) :
    ∃ after, Run.execute registry label
        (.plugin "add" (Demo.registerQubits count) (toString offset.toInt) false []) state =
          .ok () after ∧
      after.simulator.Physical ∧ after.simulator.LaidOut (Demo.registerQubits count) ∧
      ∀ index, after.simulator.globalState.value index ≠ 0 →
        IsSum count value offset superpose (index.numberAt (List.range count)) := by
  have length := register_length count
  have pruned : state.simulator.globalState.Pruned := by
    intro index amplitude found
    have different := physical.zero_free index amplitude found
    rw [← SparseState.value_of_get found] at different ⊢
    exact Change.real_kept_of_half ((holds.large index).resolve_left different)
  obtain ⟨call, added, done, physicalAdded, moves, changed⟩ :=
    physical.add (found_of_laid_out fits laidOut)
      (List.ne_nil_of_length_pos (by rw [length]; exact positive)) (length.trans_le fits) pruned
      (AddConstant.read_constant_eq (Text.writes_to_string offset.toInt))
  obtain ⟨calls, executed⟩ := Run.execute_plugin label known done
  refine ⟨_, executed, physicalAdded, ?_, fun index different => ?_⟩
  · apply laidOut.congr <;> rw [changed]
  · have distinct : (List.range count).Nodup := List.nodup_range
    have inside : ∀ slot ∈ List.range count, slot < width := fun slot member =>
      (List.mem_range.1 member).trans_le (fits.trans (by decide))
    -- The addition is a bijection, so what is met afterwards was met before at one place.
    obtain ⟨origin, moved⟩ := (BasisState.addition distinct inside
      (List.disjoint_nil_right (List.range count)) offset.toInt).surjective index
    rw [BasisState.addition, Equiv.coe_fn_mk, BasisState.addWhere,
      if_pos (show origin.allOnes [] = true from rfl)] at moved
    have same : added.globalState.value index = state.simulator.globalState.value origin := by
      rw [← moved]
      exact congrArg (Option.getD · 0) (moves origin)
    have sum := BasisState.number_at_add_at distinct inside offset.toInt origin
    rw [moved, List.length_range] at sum
    rw [same] at different
    exact ⟨_, holds.written origin different, sum⟩

/-- The outcome is one of the sums. -/
theorem measure_runs
    (sums : ∀ index, state.simulator.globalState.value index ≠ 0 →
      IsSum count value offset superpose (index.numberAt (List.range count))) :
    ∃ after, Run.execute registry label
        (.measure (Demo.registerQubits count) Demo.outcomeRegister) state = .ok () after ∧
      after.simulator.Physical ∧ after.simulator.LaidOut (Demo.registerQubits count) ∧
      IsSum count value offset superpose
        (after.simulator.register Demo.outcomeRegister).toUInt64.toNat := by
  obtain ⟨shown, after, scale, done, physicalAfter, _, possible, _, changed⟩ :=
    Run.execute_measured registry label physical (found_of_laid_out fits laidOut).2
      Demo.outcomeRegister
  refine ⟨after, done, physicalAfter, ?_, ?_⟩
  · apply laidOut.congr <;> rw [changed]
  · let bits := (List.range count).map shown.isOne
    have narrow : bits.length ≤ registerBits := by
      rw [List.length_map, List.length_range]
      exact fits
    have packed : after.simulator.register Demo.outcomeRegister = (Run.packBits bits).toInt64 := by
      rw [register, changed, get_insert, if_pos rfl, Option.getD_some]
    rw [packed, UInt64.toUInt64_toInt64, Run.to_nat_pack_bits narrow, spelled_map_is_one]
    exact sums shown possible

theorem free_runs :
    ∃ after, Run.executeAll registry label
        ((Demo.registerQubits count).map (Instruction.free · false)) state = .ok () after ∧
      after.simulator.registers = state.simulator.registers ∧
      after.simulator.allocation.size = 0 ∧ after.simulator.partitionCount = .ok 0 := by
  obtain ⟨after, done, wellFormed, table, parked, _, registers⟩ :=
    Run.free_all registry label physical.well_formed (register_distinct fits)
      fun qubit listed => ⟨_, laidOut.slot_eq listed⟩
  have nobody : after.simulator.allocation = ∅ := by
    refine Std.ExtTreeMap.ext_getElem? fun qubit => ?_
    rw [table, Std.ExtTreeMap.getElem?_empty]
    split_ifs with listed
    · rfl
    · refine Option.eq_none_iff_forall_ne_some.2 fun slot found => listed ?_
      exact List.mem_of_getElem? ((laidOut.allocated_iff qubit slot).1 found)
  have size : after.simulator.allocation.size = 0 := by
    rw [nobody]
    exact Std.ExtTreeMap.size_empty
  exact ⟨after, done, registers, size,
    wellFormed.count_of_all_freed size (parked.trans laidOut.none_parked)⟩

end Run

/-- Whatever is drawn, the only block of the program is executed to its end. -/
theorem block_runs {settings : Settings} (inForce : settings.InForce) {count : Nat}
    (positive : 0 < count) (fits : count ≤ 64) (room : count ≤ settings.maxQubits) (value : UInt64)
    (offset : Int64) (superpose : Bool) (seed : UInt64) {registry : Registry ℝ}
    (known : registry.resolve "add" = .ok AddConstant.plugin) :
    ∃ after, Run.executeAll registry "main" (instructions count value offset superpose)
        ⟨ofSeed settings.maxQubits seed, []⟩ = .ok () after ∧
      IsSum count value offset superpose
        (after.simulator.register Demo.outcomeRegister).toUInt64.toNat ∧
      after.simulator.allocation.size = 0 ∧ after.simulator.partitionCount = .ok 0 := by
  let qubits := Demo.registerQubits count
  obtain ⟨spares, holds⟩ := circuit_holds positive fits value superpose
  obtain ⟨ready, allocates, physicalReady, laidOutReady, ground, _⟩ :=
    @Run.alloc_all ℝ _ registry "main" qubits [] ⟨ofSeed settings.maxQubits seed, []⟩
      (physical_of_seed seed (.ofSeed seed) inForce.max_qubits_le)
      (LaidOut.start settings.maxQubits seed (.ofSeed seed)) (register_distinct fits)
      ((register_length count).trans_le room)
  have values : ready.simulator.globalState.value = SparseState.ground.value :=
    congrArg SparseState.value (ground.trans (global_of_seed seed (.ofSeed seed)))
  have within : ∀ call ∈ (circuit count value superpose : List (GateCall ℝ)), call.Within qubits :=
    circuit_within count value superpose
  have lossless : Run.Lossless registry "main"
      ((circuit count value superpose).map GateCall.instruction) ready :=
    Run.lossless_of_spares physicalReady laidOutReady within (by rw [values]; exact spares)
  obtain ⟨mixed, runs, physicalMixed, laidOutMixed, written, _⟩ :=
    Run.circuit_runs physicalReady laidOutReady within lossless
  rw [values] at written
  obtain ⟨added, adds, physicalAdded, laidOutAdded, sums⟩ :=
    add_runs positive fits offset registry known "main" physicalMixed laidOutMixed
      (by rw [written]; exact holds)
  obtain ⟨measured, measures, physicalMeasured, laidOutMeasured, sum⟩ :=
    measure_runs fits offset registry "main" physicalAdded laidOutAdded sums
  obtain ⟨after, frees, registers, nobody, nothing⟩ :=
    free_runs fits registry "main" physicalMeasured laidOutMeasured
  refine ⟨after, ?_, ?_, nobody, nothing⟩
  · exact Run.execute_all_append_iff.2 ⟨ready, allocates, Run.execute_all_append_iff.2
      ⟨mixed, runs, Run.execute_all_cons_iff.2 ⟨added, adds,
        Run.execute_all_cons_iff.2 ⟨measured, measures, frees⟩⟩⟩⟩
  · rw [register, registers]
    exact sum

/-- The program comes to its end with every seed. The register then holds the sum of the value and
the constant, modulo its range, or, if the least significant qubit was put in both values, the sum
of the constant and one of the two numbers that differ from the value in that bit at most.
Afterwards no qubit is allocated, and no partition is left. -/
theorem adder_adds {settings : Settings} (inForce : settings.InForce) {count : Nat}
    (positive : 1 ≤ count) (fits : count ≤ 64) (room : count ≤ settings.maxQubits) (value : UInt64)
    (offset : Int64) (superpose : Bool) (seed : UInt64) :
    ∃ machine, Machine.ofProgram settings
        (Demo.adder count value offset superpose : Program ℝ) = .ok machine ∧
      ∀ budget, 1 ≤ budget → ∃ report,
        (machine.withSeed settings seed).run settings budget = some report ∧
        report.result = .ok () ∧
        (superpose = false →
          ((report.machine.simulator.register Demo.outcomeRegister).toUInt64.toNat : Int) =
            (value.toNat + offset.toInt) % (2 ^ count : Nat)) ∧
        (superpose = true → ∃ low : Bool,
          ((report.machine.simulator.register Demo.outcomeRegister).toUInt64.toNat : Int) =
            ((2 * (value.toNat % 2 ^ count / 2) + low.toNat : Nat) + offset.toInt) %
              (2 ^ count : Nat)) ∧
        report.machine.simulator.allocation.size = 0 ∧
        report.machine.simulator.partitionCount = .ok 0 := by
  let graph : BlockGraph ℝ := graph count value offset superpose
  refine ⟨.ofGraph settings graph, ?_, fun budget enough => ?_⟩
  · rw [Machine.ofProgram, resolve_adder value offset superpose fits]
    rfl
  · obtain ⟨after, done, ⟨number, written, sum⟩, nobody, nothing⟩ :=
      block_runs inForce positive fits room value offset superpose seed
        (resolve_add settings.pluginPath)
    have passes : Run.Passes graph (.ofSearchPath settings.pluginPath) graph.entry
        ⟨ofSeed settings.maxQubits seed, []⟩ ["main"] after := .last rfl done
    have looped := Run.loop_of_passes passes enough
    refine ⟨_, congrArg (Option.map _) looped, rfl, ?_, ?_, nobody, nothing⟩
    · intro plain
      rw [Written, if_neg (by rw [plain]; exact Bool.false_ne_true)] at written
      refine sum.trans ?_
      rw [written, Int.natCast_mod, Int.emod_add_emod]
    · intro spread
      rw [Written, if_pos spread] at written
      obtain ⟨low, same⟩ := written
      exact ⟨low, by rw [← same]; exact sum⟩

theorem largest_number_wraps :
    ∃ settings : Settings, settings.InForce ∧ 64 ≤ settings.maxQubits ∧
      ∃ machine, Machine.ofProgram settings (Demo.adder 64 (-1) 2 false : Program ℝ) = .ok machine ∧
        ∃ report, (machine.withSeed settings 7).run settings 1 = some report ∧
          report.result = .ok () ∧
          (report.machine.simulator.register Demo.outcomeRegister).toUInt64.toNat = 1 := by
  let settings : Settings := ⟨"plugins", 7, "dumps", 64⟩
  have inForce : settings.InForce := .limited (.started (fun _ => none) "plugins" "dumps" 7) 64
  obtain ⟨machine, made, runs⟩ :=
    adder_adds inForce (by decide) (Nat.le_refl 64) (Nat.le_refl 64) (-1) 2 false 7
  obtain ⟨report, ended, ok, sum, _⟩ := runs 1 (Nat.le_refl 1)
  have one := sum rfl
  refine ⟨settings, inForce, Nat.le_refl 64, machine, made, report, ended, ok, ?_⟩
  have total : (((-1 : UInt64).toNat : Int) + (2 : Int64).toInt) % (2 ^ 64 : Nat) = 1 := by decide
  rw [total] at one
  exact_mod_cast one

end AdderProgram

end SparseQuantum
