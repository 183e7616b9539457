import Mathlib
import SparseQuantum.Proofs.ConstantAddition
import SparseQuantum.Proofs.LosslessMoves

/-!
# Adding a constant without loss

The plugin that adds a constant reads exactly the texts that write an integer of 64 bits. Where all
amplitudes reach the threshold it then only moves them, along the bijection that adds to the number
at the first positions modulo its range and leaves all others alone. So no amplitude is lost or
overwritten, adding and subtracting the same constant undo each other, and two constants in turn are
their sum in two's complement. Any other text, and any register that does not fit into a word, is
refused with the state unchanged.
-/

namespace SparseQuantum

set_option autoImplicit false

/-! ### Which texts are read -/

namespace Text

theorem trim_split (text : List Char) :
    ∃ before after : List Char, before.all isBlank ∧ after.all isBlank ∧
      text = before ++ trim text ++ after := by
  let front := text.dropWhile isBlank
  refine ⟨text.takeWhile isBlank, (front.reverse.takeWhile isBlank).reverse,
    List.all_takeWhile, ?_, ?_⟩
  · rw [List.all_reverse]
    exact List.all_takeWhile
  · have back : trim text ++ (front.reverse.takeWhile isBlank).reverse = front := by
      rw [trim, ← List.reverse_append, List.takeWhile_append_dropWhile, List.reverse_reverse]
    rw [List.append_assoc, back, List.takeWhile_append_dropWhile]

theorem of_read_digits {bound : Nat} {excess : IntegerFlaw} {digits : List Char} {read value : Nat}
    (within : read ≤ bound) (reads : readDigits bound excess read digits = .ok value) :
    digits.all Char.isDigit ∧
      digits.foldl (fun read character => read * 10 + digitValue character) read = value ∧
      value ≤ bound := by
  induction digits generalizing read with
  | nil =>
      cases reads
      exact ⟨rfl, rfl, within⟩
  | cons character rest induction =>
      rw [readDigits] at reads
      split_ifs at reads with digit
      · dsimp only at reads
        split_ifs at reads with below
        obtain ⟨decimals, spelled, bounded⟩ := induction below reads
        refine ⟨?_, spelled, bounded⟩
        rw [List.all_cons, digit, Bool.true_and]
        exact decimals

theorem of_read_magnitude {bound : Nat} {excess : IntegerFlaw} {digits : List Char}
    {signed : Nat → Int64} {constant : Int64}
    (reads : signed <$> readMagnitude bound excess digits = .ok constant) :
    digits ≠ [] ∧ digits.all Char.isDigit ∧ decimal digits ≤ bound ∧
      signed (decimal digits) = constant := by
  cases magnitude : readMagnitude bound excess digits with
  | error flaw =>
      rw [magnitude] at reads
      cases reads
  | ok value =>
      rw [magnitude] at reads
      rw [readMagnitude] at magnitude
      split_ifs at magnitude with empty
      obtain ⟨decimals, spelled, within⟩ := of_read_digits (Nat.zero_le bound) magnitude
      have number : decimal digits = value := spelled
      rw [number]
      exact ⟨by simpa using empty, decimals, within, Except.ok.inj reads⟩

theorem to_int_of_nat {magnitude : Nat} (within : magnitude ≤ negativeBound - 1) :
    (Int64.ofNat magnitude).toInt = magnitude := by
  have bound : magnitude ≤ 2 ^ 63 - 1 := within
  rw [← Int64.ofInt_eq_ofNat, Int64.toInt_ofInt_of_le (by omega) (by omega)]

theorem to_int_of_neg {magnitude : Nat} (within : magnitude ≤ negativeBound) :
    (Int64.ofInt (-(magnitude : Int))).toInt = -magnitude := by
  have bound : magnitude ≤ 2 ^ 63 := within
  rw [Int64.toInt_ofInt_of_le (by omega) (by omega)]

/-- A text that is read writes what is read. -/
theorem writes_of_read {text : List Char} {constant : Int64}
    (reads : readInt64 (trim text) = .ok constant) : Writes text constant.toInt := by
  obtain ⟨before, after, blankBefore, blankAfter, split⟩ := trim_split text
  rw [split]
  generalize trim text = kept at reads
  unfold readInt64 at reads
  split at reads
  · cases reads
  · next digits =>
      have negated : (fun magnitude : Nat => Int64.ofInt (-(magnitude : Int))) <$>
          readMagnitude negativeBound .tooSmall digits = .ok constant := by
        rw [← reads]
        cases readMagnitude negativeBound .tooSmall digits <;> rfl
      obtain ⟨some, decimals, within, number⟩ := of_read_magnitude negated
      rw [← number, to_int_of_neg within]
      exact .negative blankBefore blankAfter some decimals
  · next digits =>
      obtain ⟨some, decimals, within, number⟩ := of_read_magnitude reads
      rw [← number, to_int_of_nat within]
      exact .positive blankBefore blankAfter some decimals
  · obtain ⟨some, decimals, within, number⟩ := of_read_magnitude reads
    rw [← number, to_int_of_nat within]
    exact .plain blankBefore blankAfter some decimals

end Text

namespace AddConstant

/-- The constants that are read are those that the text writes, in any of their forms. -/
theorem read_constant_iff {arguments : String} {constant : Int64} :
    readConstant arguments = .ok constant ↔ Text.Writes arguments.toList constant.toInt := by
  refine ⟨fun reads => ?_, read_constant_eq⟩
  rw [readConstant] at reads
  split at reads
  · next value read =>
      cases reads
      exact Text.writes_of_read read
  · cases reads

/-! ### Addition as a bijection -/

theorem amount_not (constant : Int64) (inverse : Bool) :
    amount constant (!inverse) = -amount constant inverse := by
  cases inverse with
  | false => rfl
  | true => exact (neg_neg constant.toInt).symm

/-- Adding to the number at the first positions. -/
def adding {qubits : Nat} (fits : qubits ≤ widestRegister) (amount : Int) :
    Equiv.Perm BasisState :=
  BasisState.addition List.nodup_range (first_inside fits) (List.disjoint_nil_right _) amount

section Register

variable {qubits : Nat} (fits : qubits ≤ widestRegister)

include fits

/-- A sum of constants that wraps around does so by a multiple of the range. -/
theorem amount_add (first second : Int64) (inverse : Bool) :
    amount (first + second) inverse % (2 ^ qubits : Nat) =
      (amount first inverse + amount second inverse) % (2 ^ qubits : Nat) := by
  have plain : (first + second).toInt % (2 ^ qubits : Nat) =
      (first.toInt + second.toInt) % (2 ^ qubits : Nat) := by
    rw [Int64.toInt_add, bmod_word_mod _ fits]
  cases inverse with
  | false => exact plain
  | true =>
      change -(first + second).toInt % _ = (-first.toInt + -second.toInt) % _
      rw [← neg_add]
      exact Int.ModEq.neg plain

theorem adding_coe (amount : Int) :
    adding fits amount = BasisState.addWhere [] (List.range qubits) amount := by
  rw [adding, BasisState.addition, Equiv.coe_fn_mk]

theorem adding_apply (amount : Int) (index : BasisState) :
    adding fits amount index = BasisState.addAt (List.range qubits) amount index := by
  have none : index.allOnes [] = true := rfl
  rw [adding_coe, BasisState.addWhere, if_pos none]

theorem adding_congr {first second : Int}
    (same : first % (2 ^ qubits : Nat) = second % (2 ^ qubits : Nat)) :
    adding fits first = adding fits second := by
  apply Equiv.ext
  intro index
  rw [adding_apply, adding_apply]
  apply BasisState.add_at_congr
  rw [List.length_range]
  exact same

theorem adding_trans (first second : Int) :
    (adding fits first).trans (adding fits second) = adding fits (first + second) := by
  apply Equiv.ext
  intro index
  rw [Equiv.trans_apply, adding_apply, adding_apply, adding_apply]
  exact BasisState.add_at_add_at List.nodup_range (first_inside fits) first second index

theorem adding_zero : adding fits 0 = Equiv.refl BasisState := by
  have twice := adding_trans fits 0 0
  rw [add_zero] at twice
  apply Equiv.ext
  intro index
  apply (adding fits 0).injective
  rw [← Equiv.trans_apply, twice, Equiv.refl_apply]

end Register

variable {R : Type} [Scalar R]

theorem shift_eq_rekey {state : SparseState R} (pruned : state.Pruned) {qubits : Nat}
    (fits : qubits ≤ widestRegister) {offset : UInt64} {amount : Int}
    (same : (offset.toNat : Int) % (2 ^ qubits : Nat) = amount % (2 ^ qubits : Nat)) :
    shift state qubits offset = state.rekey (adding fits amount) := by
  let move := adding fits amount
  apply SparseState.ext_get
  intro index
  have there : (shift state qubits offset).get? (move (move.symm index)) =
      (state.get? (move.symm index)).filter Amplitude.isKept := by
    rw [adding_apply]
    exact get_shift state fits same (move.symm index)
  rw [move.apply_symm_apply, pruned.filter_get] at there
  rw [there, SparseState.get_rekey_inverse state move.symm_apply_apply move.apply_symm_apply]

/-- Where no amplitude is negligible, the plugin moves them all along the bijection. -/
theorem run_eq_rekey {call : PluginCall R} (pruned : call.state.Pruned)
    (fits : call.targets ≤ widestRegister) {constant : Int64}
    (reads : readConstant call.arguments = .ok constant) :
    plugin.run call =
      (call.state.rekey (adding fits (amount constant call.inverse)), .ok ()) := by
  by_cases none : call.targets = 0
  · have unmoved : adding fits (amount constant call.inverse) = Equiv.refl BasisState := by
      rw [← adding_zero fits]
      apply adding_congr
      rw [none, Nat.pow_zero, Nat.cast_one, Int.emod_one, Int.emod_one]
    have transformed : transform call = .ok call.state := by
      rw [transform, if_neg (Nat.not_lt_of_le fits), reads]
      exact if_pos none
    rw [unmoved, SparseState.rekey_refl]
    simp only [plugin, transformed, Plugin.succeed]
  · obtain ⟨offset, ran, same⟩ := run_eq_shift fits none reads
    rw [ran, shift_eq_rekey pruned fits same]

/-! ### What a run does -/

/-- The run succeeds and takes every entry along the bijection, which adds the amount to the number
at the first positions; the opposite run takes them back, and a further constant gives what one run
with the sum would have given. -/
structure Exact (call : PluginCall R) (constant : Int64) (move : Equiv.Perm BasisState)
    (after : SparseState R) : Prop where
  succeeds : plugin.run call = (after, .ok ())
  adds : BasisState.Adds move (List.range call.targets) [] (amount constant call.inverse)
  moved : after.entries.Perm (call.state.entries.map fun entry => (move entry.1, entry.2))
  size_eq : after.size = call.state.size
  pruned : after.Pruned
  undone : plugin.run { call with state := after, inverse := !call.inverse } =
    (call.state, .ok ())
  summed : ∀ (next : Int64) (again sum : String), Text.Writes again.toList next.toInt →
    Text.Writes sum.toList (constant + next).toInt →
      ∃ both, plugin.run { call with state := after, arguments := again } = (both, .ok ()) ∧
        plugin.run { call with arguments := sum } = (both, .ok ())

theorem exact_of_reads {call : PluginCall R} (pruned : call.state.Pruned)
    (fits : call.targets ≤ widestRegister) {constant : Int64}
    (reads : readConstant call.arguments = .ok constant) :
    ∃ move after, Exact call constant move after := by
  let move := adding fits (amount constant call.inverse)
  have prunedAfter : (call.state.rekey move).Pruned := SparseState.pruned_rekey pruned move
  refine ⟨move, call.state.rekey move, run_eq_rekey pruned fits reads, ?_,
    call.state.rekey_entries_perm move.injective, call.state.size_rekey move.injective,
    prunedAfter, ?_, ?_⟩
  · have adds := BasisState.add_where_adds List.nodup_range (first_inside fits) []
      (amount constant call.inverse)
    rw [← adding_coe fits] at adds
    exact adds
  · let back : PluginCall R :=
      { call with state := call.state.rekey move, inverse := !call.inverse }
    have ran := @run_eq_rekey R _ back prunedAfter fits constant reads
    rw [ran, SparseState.rekey_rekey, adding_trans, amount_not, add_neg_cancel, adding_zero,
      SparseState.rekey_refl]
  · intro next again sum writesAgain writesSum
    let later : PluginCall R := { call with state := call.state.rekey move, arguments := again }
    let once : PluginCall R := { call with arguments := sum }
    have ranLater := @run_eq_rekey R _ later prunedAfter fits next (read_constant_eq writesAgain)
    have ranOnce := @run_eq_rekey R _ once pruned fits _ (read_constant_eq writesSum)
    refine ⟨_, ranLater, ?_⟩
    rw [ranOnce, SparseState.rekey_rekey, adding_trans, adding_congr fits (amount_add fits _ _ _)]

/-- Adding a constant to up to 64 qubits is exact for every state without negligible amplitudes and
every text of a constant; anything else is refused, and the state is left as it was. -/
theorem addition_exact (call : PluginCall R) :
    (call.state.Pruned → call.targets ≤ widestRegister → ∀ constant : Int64,
      Text.Writes call.arguments.toList constant.toInt →
        ∃ (move : Equiv.Perm BasisState) (after : SparseState R),
          Exact call constant move after) ∧
    (widestRegister < call.targets →
      plugin.run call = Plugin.fail name (Failure.tooWide call.targets).reason call.state) ∧
    (call.targets ≤ widestRegister →
      (∀ constant : Int64, ¬Text.Writes call.arguments.toList constant.toInt) →
        ∃ flaw : Text.IntegerFlaw, plugin.run call =
          Plugin.fail name (Failure.noInteger call.arguments flaw).reason call.state) := by
  refine ⟨fun pruned fits constant writes => exact_of_reads pruned fits (read_constant_eq writes),
    fun wide => run_fails (if_pos wide), fun fits unwritten => ?_⟩
  have refused : ∃ flaw, readConstant call.arguments = .error (.noInteger call.arguments flaw) := by
    cases reads : readConstant call.arguments with
    | ok constant => exact absurd (read_constant_iff.1 reads) (unwritten constant)
    | error failure =>
        rw [readConstant] at reads
        split at reads
        · cases reads
        · next flaw _ => exact ⟨flaw, reads.symm⟩
  obtain ⟨flaw, reads⟩ := refused
  refine ⟨flaw, run_fails ?_⟩
  rw [transform, if_neg (Nat.not_lt_of_le fits), reads]
  rfl

/-- On a whole word, taking away the least constant turns the highest bit, so two entries change
places. One more is no constant, and one more qubit is no register. -/
theorem least_constant_taken_away :
    (SparseState.leaning 0).Pruned ∧
    Text.Writes " -9223372036854775808".toList Int64.minValue.toInt ∧
    (∃ (move : Equiv.Perm BasisState) (after : SparseState ℝ),
      Exact ⟨64, 0, " -9223372036854775808", true, .leaning 0⟩ Int64.minValue move after ∧
        after.get? (move .zero) = some ⟨0.6, 0⟩ ∧
        ((move .zero).numberAt (List.range 64) : Int) = 2 ^ 63 ∧
        after.get? (move (BasisState.zero.flip 0)) = some ⟨0, 0.8⟩ ∧
        ((move (BasisState.zero.flip 0)).numberAt (List.range 64) : Int) = 0) ∧
    (∀ constant : Int64, ¬Text.Writes "9223372036854775808".toList constant.toInt) ∧
    (∃ flaw : Text.IntegerFlaw,
      plugin.run (R := ℝ) ⟨64, 0, "9223372036854775808", true, .leaning 0⟩ =
        Plugin.fail name (Failure.noInteger "9223372036854775808" flaw).reason (.leaning 0)) ∧
    plugin.run (R := ℝ) ⟨65, 0, "1", true, .leaning 0⟩ =
      Plugin.fail name (Failure.tooWide 65).reason (.leaning 0) := by
  have pruned : (SparseState.leaning 0).Pruned := SparseState.pruned_of_amplitudes _
  have writes : Text.Writes " -9223372036854775808".toList Int64.minValue.toInt :=
    read_constant_iff.1 (by rfl)
  have unwritten (constant : Int64) :
      ¬Text.Writes "9223372036854775808".toList constant.toInt := by
    intro writes
    have reads := read_constant_eq writes
    have refused : readConstant "9223372036854775808" =
        .error (.noInteger "9223372036854775808" .tooLarge) := by rfl
    cases refused.symm.trans reads
  obtain ⟨move, after, exact⟩ :=
    (addition_exact ⟨64, 0, " -9223372036854775808", true, .leaning 0⟩).1 pruned (by decide) _
      writes
  have carried {index : BasisState} {amplitude : Amplitude ℝ}
      (stored : (SparseState.leaning 0).get? index = some amplitude) :
      after.get? (move index) = some amplitude := by
    rw [← SparseState.mem_entries_iff, exact.moved.mem_iff, List.mem_map]
    exact ⟨(index, amplitude), (SparseState.mem_entries_iff _ index amplitude).2 stored, rfl⟩
  have first : 0 < width := by decide
  obtain ⟨low, high⟩ := SparseState.leaning_stored first
  refine ⟨pruned, writes, ⟨move, after, exact, carried low, ?_, carried high, ?_⟩, unwritten,
    (addition_exact ⟨64, 0, "9223372036854775808", true, .leaning 0⟩).2.2 (by decide) unwritten,
    (addition_exact ⟨65, 0, "1", true, .leaning 0⟩).2.1 (by decide)⟩
  · rw [exact.adds.added .zero rfl]
    decide +kernel
  · rw [exact.adds.added (BasisState.zero.flip 0) rfl]
    decide +kernel

end AddConstant

end SparseQuantum
