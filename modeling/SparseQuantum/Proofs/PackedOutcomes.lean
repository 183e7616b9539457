import Mathlib
import SparseQuantum.Proofs.ConstantAddition
import SparseQuantum.Proofs.FailingInstructions
import SparseQuantum.Proofs.NeverFaults

/-!
# Outcomes packed into a register

An instruction that measures several qubits takes them in order and leaves the outcomes in one
register, the first one in the highest place that is used. A program that resolves never measures
more qubits at once than a register has bits, so that no outcome is shifted out.
-/

namespace SparseQuantum

set_option autoImplicit false

/-! ### Numbers spelled by bits -/

def spelled (bits : List Bool) : Nat := bits.foldl (fun value bit => 2 * value + bit.toNat) 0

theorem spelled_concat (bits : List Bool) (bit : Bool) :
    spelled (bits ++ [bit]) = 2 * spelled bits + bit.toNat := by
  rw [spelled, spelled, List.foldl_append]
  rfl

theorem spelled_lt (bits : List Bool) : spelled bits < 2 ^ bits.length := by
  induction bits using List.reverseRecOn with
  | nil => exact Nat.zero_lt_one
  | append_singleton bits bit induction =>
      have digit := Bool.toNat_le bit
      rw [spelled_concat, List.length_append, List.length_singleton, Nat.pow_succ]
      omega

theorem spelled_append (first second : List Bool) :
    spelled (first ++ second) = 2 ^ second.length * spelled first + spelled second := by
  induction second using List.reverseRecOn with
  | nil => simp [spelled]
  | append_singleton second bit induction =>
      rw [← List.append_assoc, spelled_concat, spelled_concat, induction, List.length_append,
        List.length_singleton]
      ring

theorem spelled_eq_sum (bits : List Bool) :
    spelled bits = ∑ place : Fin bits.length,
      bits[place].toNat * 2 ^ (bits.length - 1 - place) := by
  induction bits with
  | nil => rfl
  | cons bit rest induction =>
      have first : spelled [bit] = bit.toNat := Nat.zero_add _
      have later (place : Nat) : rest.length + 1 - 1 - (place + 1) = rest.length - 1 - place := by
        omega
      rw [← List.singleton_append, spelled_append, first, induction, Nat.mul_comm]
      simp only [List.singleton_append, List.length_cons]
      rw [Fin.sum_univ_succ]
      simp only [Fin.val_succ, later]
      rfl

theorem test_bit_spelled (bits : List Bool) {place : Nat} (inside : place < bits.length) :
    (spelled bits).testBit (bits.length - 1 - place) = bits[place] := by
  have split : bits = (bits.take place ++ [bits[place]]) ++ bits.drop (place + 1) := by
    rw [List.take_append_getElem, List.take_append_drop]
  have length_eq : (bits.drop (place + 1)).length = bits.length - 1 - place := by
    rw [List.length_drop]
    omega
  have low := spelled_lt (bits.drop (place + 1))
  have value := congrArg spelled split
  rw [spelled_append, spelled_concat] at value
  rw [value, ← length_eq, Nat.testBit_two_pow_mul_add _ low, if_neg (Nat.lt_irrefl _),
    Nat.sub_self, Nat.testBit_zero]
  cases bits[place] <;> simp

theorem spelled_map_is_one (index : BasisState) (slots : List Nat) :
    spelled (slots.map index.isOne) = index.numberAt slots :=
  List.foldl_map

namespace Run

theorem to_nat_pack_bits {bits : List Bool} (fits : bits.length ≤ registerBits) :
    (packBits bits).toNat = spelled bits := by
  induction bits using List.reverseRecOn with
  | nil => rfl
  | append_singleton bits bit induction =>
      rw [List.length_append, List.length_singleton] at fits
      have earlier := induction (by omega)
      have room : 2 * (packBits bits).toNat + 1 < 2 ^ 64 := by
        have below := spelled_lt bits
        have power : 2 ^ (bits.length + 1) ≤ 2 ^ 64 := Nat.pow_le_pow_right (by decide) fits
        rw [Nat.pow_succ] at power
        omega
      have step : packBits (bits ++ [bit]) =
          (packBits bits <<< 1) ||| (if bit then 1 else 0) := by
        rw [packBits, List.foldl_append]
        rfl
      rw [step, AddConstant.to_nat_push_bit bit room, spelled_concat, earlier]

theorem negative_iff (value : UInt64) : value.toInt64 < 0 ↔ value.toNat.testBit 63 = true := by
  change BitVec.slt value.toBitVec 0#64 = true ↔ _
  rw [BitVec.slt_zero_eq_msb, BitVec.msb_eq_getLsbD_last]
  rfl

variable {R : Type} [Scalar R]

open Simulator

/-! ### Outcomes in order -/

inductive Answers : List QubitId → List Bool → Simulator R → Simulator R → Prop where
  | nothing (simulator : Simulator R) : Answers [] [] simulator simulator
  | next {qubit : QubitId} {rest : List QubitId} {bit : Bool} {bits : List Bool}
      {before middle after : Simulator R} (here : measure qubit before = .ok bit middle)
      (later : Answers rest bits middle after) : Answers (qubit :: rest) (bit :: bits) before after

theorem answers_of_measure_all {qubits : List QubitId} {bits : List Bool}
    {before after : Simulator R} (done : measureAll qubits before = .ok bits after) :
    Answers qubits bits before after := by
  induction qubits generalizing bits before with
  | nil =>
      cases done
      exact .nothing after
  | cons qubit rest induction =>
      rcases bind_ends done with ⟨_, _, _, absurdity⟩ | ⟨bit, middle, here, onward⟩
      · cases absurdity
      · rcases bind_ends onward with ⟨_, _, _, absurdity⟩ | ⟨others, last, later, ends⟩
        · cases absurdity
        · cases ends
          exact .next here (induction later)

namespace Answers

variable {qubits : List QubitId} {bits : List Bool} {before after : Simulator R}

theorem length_eq (answers : Answers qubits bits before after) : bits.length = qubits.length := by
  induction answers with
  | nothing => rfl
  | next _ _ induction => rw [List.length_cons, List.length_cons, induction]

theorem bit_kept (answers : Answers qubits bits before after) (sound : before.Sound)
    {qubit : QubitId} (absent : qubit ∉ qubits) : after.bits[qubit]? = before.bits[qubit]? := by
  induction answers with
  | nothing => rfl
  | @next measured rest bit bits before middle after here _ induction =>
      rw [List.mem_cons, not_or] at absent
      obtain ⟨_, _, _, changed⟩ := measure_changes sound here
      have table : middle.bits = before.bits.insert measured bit := by rw [changed]
      rw [induction (sound_of_measure sound here) absent.2, table, get_insert, if_neg absent.1]

theorem bit_recorded (answers : Answers qubits bits before after) (sound : before.Sound)
    {place : Nat} {qubit : QubitId} {bit : Bool} (listed : qubits[place]? = some qubit)
    (answer : bits[place]? = some bit)
    (last : ∀ later, place < later → qubits[later]? ≠ some qubit) :
    after.bits[qubit]? = some bit := by
  induction answers generalizing place with
  | nothing => cases listed
  | @next measured rest outcome bits before middle after here later induction =>
      have soundNext := sound_of_measure sound here
      cases place with
      | zero =>
          cases listed
          cases answer
          have absent : qubit ∉ rest := by
            intro member
            obtain ⟨index, again⟩ := List.mem_iff_getElem?.1 member
            exact last (index + 1) (Nat.succ_pos index) again
          obtain ⟨_, _, _, changed⟩ := measure_changes sound here
          have table : middle.bits = before.bits.insert qubit bit := by rw [changed]
          rw [later.bit_kept soundNext absent, table, get_insert, if_pos rfl]
      | succ place =>
          exact induction soundNext listed answer fun later behind =>
            last (later + 1) (Nat.succ_lt_succ behind)

end Answers

/-! ### The instruction -/

/-- The outcomes are packed into the register, and nothing else is done. -/
theorem execute_measure {registry : Registry R} {label : String} {qubits : List QubitId}
    {register : RegisterId} {before after : RunState R}
    (done : execute registry label (.measure qubits register) before = .ok () after) :
    ∃ bits middle, measureAll qubits before.simulator = .ok bits middle ∧
      after = { before with simulator := { middle with
        registers := middle.registers.insert register (packBits bits).toInt64 } } := by
  change perform ⟨label, .measure qubits register⟩ (measureAll qubits >>= fun bits =>
    Action.setRegister register (packBits bits).toInt64) before = _ at done
  unfold perform at done
  split at done
  · next answer =>
      cases done
      rcases bind_ends answer with ⟨_, _, _, absurdity⟩ | ⟨bits, middle, measured, packed⟩
      · cases absurdity
      · cases packed
        exact ⟨bits, middle, measured, rfl⟩
  · cases done
  · cases done

theorem origin_of_forall₂ {α β : Type} {related : α → β → Prop} {origins : List α}
    {results : List β} (all : List.Forall₂ related origins results) {result : β}
    (member : result ∈ results) : ∃ origin ∈ origins, related origin result := by
  induction all with
  | nil => cases member
  | @cons origin other origins others here _ induction =>
      rcases List.mem_cons.1 member with same | later
      · rw [same]
        exact ⟨origin, List.mem_cons_self, here⟩
      · obtain ⟨found, earlier, holds⟩ := induction later
        exact ⟨found, List.mem_cons_of_mem _ earlier, holds⟩

theorem statement_of_reaches {program : Program R} {graph : BlockGraph R}
    (resolves : program.ResolvesTo graph) {registry : Registry R} {number : Nat}
    {state before : RunState R} {sites : List (Site R)} {site : Site R}
    (reaches : Reaches graph registry number state sites site before) :
    ∃ block ∈ program.blocks, ∃ statement ∈ block.statements,
      statement.resolve block.label = .ok site.instruction := by
  induction reaches with
  | @inside number block earlier later instruction state before found split done =>
      obtain ⟨written, inProgram, becomes⟩ :=
        origin_of_forall₂ resolves.blocks (List.mem_of_getElem? found)
      have listed : instruction ∈ block.instructions := by
        rw [split]
        exact List.mem_append_right _ List.mem_cons_self
      obtain ⟨statement, inBlock, resolved⟩ := origin_of_forall₂ becomes.instructions listed
      exact ⟨written, inProgram, statement, inBlock, resolved⟩
  | onward _ _ _ _ _ induction => exact induction

omit [Scalar R] in
theorem measure_fits {label : String} {statement : Statement R} {qubits : List QubitId}
    {register : RegisterId} (resolved : statement.resolve label = .ok (.measure qubits register)) :
    qubits.length ≤ registerBits := by
  cases statement with
  | measure measured target =>
      by_cases wide : registerBits < measured.length
      · rw [Statement.resolve, if_pos wide] at resolved
        cases resolved
      · rw [Statement.resolve, if_neg wide] at resolved
        cases resolved
        exact Nat.le_of_not_lt wide
  | gate name angles target controls =>
      obtain ⟨_, _, rest⟩ := except_bind_eq_ok resolved
      split at rest <;> cases rest
  | binary symbol target left right =>
      obtain ⟨_, _, rest⟩ := except_bind_eq_ok resolved
      cases rest
  | unary symbol target source =>
      obtain ⟨_, _, rest⟩ := except_bind_eq_ok resolved
      cases rest
  | _ => cases resolved

/-- However a run came to it, an instruction that measures qubits leaves their outcomes in its
register: read as an unsigned number it is the sum of the outcomes by their places, the first one
highest, so that each can be read off it, and with as many as there are bits the first one is the
sign. The last outcome of each qubit is recorded. No other register and no other bit changes. -/
theorem measured_bits_packed {program : Program R} {graph : BlockGraph R}
    (resolved : program.resolve = .ok graph) {registry : Registry R}
    {state before after : RunState R} (arises : state.simulator.Arises)
    {completed : List (Site R)} {label : String} {qubits : List QubitId} {register : RegisterId}
    (reaches : Reaches graph registry graph.entry state completed
      ⟨label, .measure qubits register⟩ before)
    (done : execute registry label (.measure qubits register) before = .ok () after) :
    ∃ (bits : List Bool) (middle : Simulator R), Answers qubits bits before.simulator middle ∧
      after = { before with simulator := { middle with registers := after.simulator.registers } } ∧
      bits.length = qubits.length ∧ bits.length ≤ 64 ∧
      (after.simulator.register register).toUInt64.toNat =
        ∑ place : Fin bits.length, bits[place].toNat * 2 ^ (bits.length - 1 - place) ∧
      (∀ (place : Nat) (inside : place < bits.length),
        (after.simulator.register register).toUInt64.toNat.testBit (bits.length - 1 - place) =
          bits[place]) ∧
      (bits.length = 64 → (after.simulator.register register < 0 ↔ bits[0]? = some true)) ∧
      (∀ (place : Nat) (qubit : QubitId) (bit : Bool), qubits[place]? = some qubit →
        bits[place]? = some bit → (∀ later, place < later → qubits[later]? ≠ some qubit) →
          after.simulator.bit qubit = .ok bit) ∧
      (∀ other, other ≠ register →
        after.simulator.registers[other]? = before.simulator.registers[other]?) ∧
      ∀ qubit, qubit ∉ qubits → after.simulator.bits[qubit]? = before.simulator.bits[qubit]? := by
  have resolves := Program.resolves_to_of_ok resolved
  have sound := arises_sound (arises_of_reaches reaches arises)
  obtain ⟨bits, middle, measured, changed⟩ := execute_measure done
  have answers := answers_of_measure_all measured
  have count := answers.length_eq
  obtain ⟨_, _, statement, _, written⟩ := statement_of_reaches resolves reaches
  have fits : bits.length ≤ registerBits := count.trans_le (measure_fits written)
  obtain ⟨_, _, _, unchanged⟩ := measure_all_changes sound measured
  have registers : middle.registers = before.simulator.registers := by rw [unchanged]
  have table : after.simulator.bits = middle.bits := by rw [changed]
  have written : after.simulator.registers =
      before.simulator.registers.insert register (packBits bits).toInt64 := by
    rw [changed, ← registers]
  have value : after.simulator.register register = (packBits bits).toInt64 := by
    rw [Simulator.register, written, get_insert, if_pos rfl]
    rfl
  have number : (after.simulator.register register).toUInt64.toNat = spelled bits := by
    rw [value]
    exact to_nat_pack_bits fits
  refine ⟨bits, middle, answers, ?_, count, fits, ?_, ?_, ?_, ?_, ?_, ?_⟩
  · rw [changed]
  · rw [number, spelled_eq_sum]
  · intro place inside
    rw [number, test_bit_spelled bits inside]
  · intro full
    have first : 0 < bits.length := by omega
    have sign := test_bit_spelled bits first
    rw [full] at sign
    rw [value, negative_iff, to_nat_pack_bits fits, sign, List.getElem?_eq_getElem first,
      Option.some.injEq]
  · intro place qubit bit listed answer last
    rw [Simulator.bit, table, answers.bit_recorded sound listed answer last]
  · intro other different
    rw [written, get_insert, if_neg different]
  · intro qubit absent
    rw [table, answers.bit_kept sound absent]

end Run

namespace Machine

/-- As many outcomes as a register has bits, of which the first and the last are 1. -/
def wideMeasurement : List QubitId := ⟨0⟩ :: List.replicate 62 ⟨1⟩ ++ [⟨0⟩]

def wide : Program Float where
  entry := "main"
  blocks :=
    [⟨"main", [.alloc ⟨0⟩ false, .alloc ⟨1⟩ false, .gate "x" [] ⟨0⟩ [],
        .measure wideMeasurement ⟨5⟩], .stop⟩]

def wideGraph : BlockGraph Float where
  blocks :=
    [⟨"main", [.alloc ⟨0⟩ false, .alloc ⟨1⟩ false, .gate .x ⟨0⟩ [],
        .measure wideMeasurement ⟨5⟩], .stop⟩]
  entry := 0
  last := 0

def finished? {ε σ : Type} : EStateM.Result ε σ Unit → Option σ
  | .ok () after => some after
  | .error _ _ => none

theorem eq_of_finished {ε σ : Type} {result : EStateM.Result ε σ Unit} {after : σ}
    (finished : finished? result = some after) : result = .ok () after := by
  cases result with
  | ok value left =>
      cases finished
      rfl
  | error stop left => cases finished

/-- The first of so many outcomes is the sign of the number in the register. -/
theorem wide_measurement_packed :
    wide.resolve = .ok wideGraph ∧
    ∃ completed before after bits middle,
      Run.Reaches wideGraph (.ofSearchPath "plugins") 0 ⟨.ofSeed width 7, []⟩ completed
        ⟨"main", .measure wideMeasurement ⟨5⟩⟩ before ∧
      Run.execute (.ofSearchPath "plugins") "main" (.measure wideMeasurement ⟨5⟩) before =
        .ok () after ∧
      Run.Answers wideMeasurement bits before.simulator middle ∧ bits.length = 64 ∧
      (after.simulator.register ⟨5⟩).toInt = -2 ^ 63 + 1 ∧ bits[0]? = some true := by
  have resolved : wide.resolve = .ok wideGraph := by cbv
  have arises : (Simulator.ofSeed width 7 : Simulator Float).Arises :=
    .seeded (.started (fun _ => none) "plugins" "dumps" 7) 7
  let registry : Registry Float := .ofSearchPath "plugins"
  let earlier : List (Instruction Float) :=
    [.alloc ⟨0⟩ false, .alloc ⟨1⟩ false, .gate .x ⟨0⟩ []]
  let before : RunState Float :=
    stateLeft (Run.executeAll registry "main" earlier ⟨.ofSeed width 7, []⟩)
  have begun : Run.executeAll registry "main" earlier ⟨.ofSeed width 7, []⟩ = .ok () before := by
    rfl
  have found : wideGraph.blocks[0]? =
      some ⟨"main", earlier ++ [.measure wideMeasurement ⟨5⟩], .stop⟩ := rfl
  have reaches : Run.Reaches wideGraph registry 0 ⟨.ofSeed width 7, []⟩ _
      ⟨"main", .measure wideMeasurement ⟨5⟩⟩ before := .inside found rfl begun
  have shown : (finished? (Run.execute registry "main" (.measure wideMeasurement ⟨5⟩) before)).map
      (fun after => (after.simulator.register ⟨5⟩).toInt) = some (-2 ^ 63 + 1) := by
    decide +kernel
  obtain ⟨after, finished, value⟩ := Option.map_eq_some_iff.1 shown
  have done := eq_of_finished finished
  obtain ⟨bits, middle, answers, _, count, _, _, _, sign, _⟩ :=
    Run.measured_bits_packed resolved arises reaches done
  have full : bits.length = 64 := count
  have negative : after.simulator.register ⟨5⟩ < 0 := by
    rw [Int64.lt_iff_toInt_lt, value]
    decide
  exact ⟨resolved, _, before, after, bits, middle, reaches, done, answers, full, value,
    (sign full).1 negative⟩

end Machine

end SparseQuantum
