import Mathlib
import SparseQuantum.Proofs.Refusals
import SparseQuantum.Proofs.Registers
import SparseQuantum.Proofs.SupportLocality

/-!
# The plugin that adds a constant

Its arithmetic on machine words is addition to the register at the first positions, modulo the
register's range. Called on qubits it adds to the register at their slots, wherever these are, in
the basis states in which all live controls are 1. The constant may be written with blanks around
it, a sign and leading zeros.
-/

namespace SparseQuantum

set_option autoImplicit false

/-! ### Decimal constants -/

namespace Text

def decimal (digits : List Char) : Nat :=
  digits.foldl (fun read character => read * 10 + digitValue character) 0

/-- A text that writes an integer: digits, perhaps behind a sign, with any blanks around. -/
inductive Writes : List Char → Int → Prop where
  | plain {before digits after : List Char} (blankBefore : before.all isBlank)
      (blankAfter : after.all isBlank) (some : digits ≠ []) (decimals : digits.all Char.isDigit) :
      Writes (before ++ digits ++ after) (decimal digits)
  | positive {before digits after : List Char} (blankBefore : before.all isBlank)
      (blankAfter : after.all isBlank) (some : digits ≠ []) (decimals : digits.all Char.isDigit) :
      Writes (before ++ '+' :: digits ++ after) (decimal digits)
  | negative {before digits after : List Char} (blankBefore : before.all isBlank)
      (blankAfter : after.all isBlank) (some : digits ≠ []) (decimals : digits.all Char.isDigit) :
      Writes (before ++ '-' :: digits ++ after) (-(decimal digits : Int))

theorem not_blank_of_digit {character : Char} (digit : character.isDigit = true) :
    isBlank character = false := by
  have range : 48 ≤ character.toNat ∧ character.toNat ≤ 57 := by
    simp only [Char.isDigit, Bool.and_eq_true, decide_eq_true_eq, ge_iff_le,
      UInt32.le_iff_toNat_le] at digit
    exact digit
  simp only [isBlank, blankRanges, List.any_cons, List.any_nil, Bool.or_false,
    Bool.or_eq_false_iff, Bool.and_eq_false_iff, decide_eq_false_iff_not]
  omega

theorem trim_eq {before kept after : List Char} (blankBefore : before.all isBlank)
    (blankAfter : after.all isBlank) (some : kept ≠ [])
    (first : isBlank (kept.head some) = false) (last : isBlank (kept.getLast some) = false) :
    trim (before ++ kept ++ after) = kept := by
  have dropped {blanks rest : List Char} (blank : blanks.all isBlank) (more : rest ≠ [])
      (next : isBlank (rest.head more) = false) : (blanks ++ rest).dropWhile isBlank = rest := by
    rw [List.dropWhile_append_of_pos (List.all_eq_true.1 blank)]
    cases rest with
    | nil => exact absurd rfl more
    | cons character rest => exact List.dropWhile_cons_of_neg (by simpa using next)
  have front : (before ++ kept ++ after).dropWhile isBlank = kept ++ after := by
    rw [List.append_assoc]
    apply dropped blankBefore (by simp [some])
    rw [List.head_append_of_ne_nil some]
    exact first
  have back : (after.reverse ++ kept.reverse).dropWhile isBlank = kept.reverse := by
    apply dropped (by rw [List.all_reverse]; exact blankAfter) (by simpa using some)
    rw [List.head_reverse]
    exact last
  rw [trim, front, List.reverse_append, back, List.reverse_reverse]

/-- Digits are read to the end when the number stays within the bound. -/
theorem read_digits_eq {bound : Nat} {excess : IntegerFlaw} {digits : List Char}
    (decimals : digits.all Char.isDigit) (read : Nat)
    (below : digits.foldl (fun read character => read * 10 + digitValue character) read ≤ bound) :
    readDigits bound excess read digits =
      .ok (digits.foldl (fun read character => read * 10 + digitValue character) read) := by
  induction digits generalizing read with
  | nil => rfl
  | cons character rest induction =>
      rw [List.all_cons, Bool.and_eq_true] at decimals
      have grows (digits : List Char) (start : Nat) :
          start ≤ digits.foldl (fun read character => read * 10 + digitValue character) start := by
        induction digits generalizing start with
        | nil => exact Nat.le_refl start
        | cons first others larger =>
            have step := larger (start * 10 + digitValue first)
            rw [List.foldl_cons]
            omega
      rw [List.foldl_cons] at below
      rw [readDigits, if_pos decimals.1]
      simp only
      rw [if_pos (Nat.le_trans (grows rest _) below), induction decimals.2 _ below, List.foldl_cons]

theorem read_magnitude_eq {bound : Nat} {excess : IntegerFlaw} {digits : List Char}
    (some : digits ≠ []) (decimals : digits.all Char.isDigit) (below : decimal digits ≤ bound) :
    readMagnitude bound excess digits = .ok (decimal digits) := by
  rw [readMagnitude, if_neg (by simpa using some), read_digits_eq decimals 0 below]
  rfl

end Text

namespace AddConstant

/-- Every way to write a 64-bit integer is read as that integer. -/
theorem read_constant_eq {arguments : String} {constant : Int64}
    (written : Text.Writes arguments.toList constant.toInt) :
    readConstant arguments = .ok constant := by
  have least := constant.le_toInt
  have greatest := constant.toInt_lt
  have same := Int64.ofInt_toInt constant
  have reads : Text.readInt64 (Text.trim arguments.toList) = .ok constant := by
    generalize constant.toInt = number at written least greatest same
    generalize arguments.toList = text at written
    cases written with
    | @plain before digits after blankBefore blankAfter some decimals =>
        have isDigit := List.all_eq_true.1 decimals
        rw [Text.trim_eq blankBefore blankAfter some
          (Text.not_blank_of_digit (isDigit _ (List.head_mem some)))
          (Text.not_blank_of_digit (isDigit _ (List.getLast_mem some)))]
        cases digits with
        | nil => exact absurd rfl some
        | cons first rest =>
            have digit := isDigit first List.mem_cons_self
            have read : Text.readInt64 (first :: rest) =
                Int64.ofNat <$> Text.readMagnitude (Text.negativeBound - 1) .tooLarge
                  (first :: rest) := by
              unfold Text.readInt64
              split
              · next empty => cases empty
              · next minus =>
                  rw [(List.cons.inj minus).1] at digit
                  exact absurd digit (by decide)
              · next plus =>
                  rw [(List.cons.inj plus).1] at digit
                  exact absurd digit (by decide)
              · rfl
            rw [read, Text.read_magnitude_eq some decimals (by
              change _ ≤ 2 ^ 63 - 1
              omega)]
            exact congrArg Except.ok (Int64.ofInt_eq_ofNat.symm.trans same)
    | @positive before digits after blankBefore blankAfter some decimals =>
        have isDigit := List.all_eq_true.1 decimals
        rw [Text.trim_eq blankBefore blankAfter (List.cons_ne_nil '+' digits)
          (show Text.isBlank '+' = false by decide) (by
          rw [List.getLast_cons some]
          exact Text.not_blank_of_digit (isDigit _ (List.getLast_mem some))), Text.readInt64,
          Text.read_magnitude_eq some decimals (by
            change _ ≤ 2 ^ 63 - 1
            omega)]
        exact congrArg Except.ok (Int64.ofInt_eq_ofNat.symm.trans same)
    | @negative before digits after blankBefore blankAfter some decimals =>
        have isDigit := List.all_eq_true.1 decimals
        rw [Text.trim_eq blankBefore blankAfter (List.cons_ne_nil '-' digits)
          (show Text.isBlank '-' = false by decide) (by
          rw [List.getLast_cons some]
          exact Text.not_blank_of_digit (isDigit _ (List.getLast_mem some))), Text.readInt64,
          Text.read_magnitude_eq some decimals (by
            change _ ≤ 2 ^ 63
            omega)]
        exact congrArg Except.ok same
  rw [readConstant, reads]

/-! ### Words as registers -/

theorem to_nat_push_bit {value : UInt64} (bit : Bool) (room : 2 * value.toNat + 1 < 2 ^ 64) :
    ((value <<< 1) ||| (if bit then 1 else 0)).toNat = 2 * value.toNat + bit.toNat := by
  have shifted : (value <<< 1).toNat = 2 ^ 1 * value.toNat := by
    rw [UInt64.toNat_shiftLeft]
    change value.toNat <<< 1 % 2 ^ 64 = _
    rw [Nat.shiftLeft_eq]
    omega
  rw [UInt64.toNat_or, shifted]
  cases bit with
  | true => exact (Nat.two_pow_add_eq_or_of_lt (by decide) _).symm
  | false => exact (Nat.two_pow_add_eq_or_of_lt (by decide) _).symm

theorem to_nat_register_value (index : BasisState) {qubits : Nat} (fits : qubits ≤ widestRegister) :
    (registerValue index qubits).toNat = index.numberAt (List.range qubits) := by
  induction qubits with
  | zero => rfl
  | succ qubits induction =>
      have earlier := induction (by omega)
      have small : 2 * (registerValue index qubits).toNat + 1 < 2 ^ 64 := by
        have below := index.number_at_lt (List.range qubits)
        have room : 2 ^ (qubits + 1) ≤ 2 ^ 64 := Nat.pow_le_pow_right (by decide) fits
        rw [List.length_range] at below
        rw [Nat.pow_succ] at room
        omega
      have step : registerValue index (qubits + 1) =
          (registerValue index qubits <<< 1) ||| (if index.isOne qubits then 1 else 0) := by
        rw [registerValue, List.range_succ, List.foldl_append]
        rfl
      rw [step, List.range_succ, BasisState.number_at_concat, to_nat_push_bit _ small, earlier]

/-- What setting positions one after the other leaves at each. -/
theorem is_one_foldl_set_bits (places : List Nat) (bit : Nat → Bool) (start : BasisState)
    (position : Nat) :
    (places.foldl (fun index place => index.set place (bit place)) start).isOne position =
      if position ∈ places ∧ position < width then bit position else start.isOne position := by
  induction places generalizing start with
  | nil => simp
  | cons place rest induction =>
      rw [List.foldl_cons, induction, BasisState.is_one_set]
      by_cases later : position ∈ rest
      · by_cases inside : position < width <;> simp [later, inside]
      · by_cases here : place = position
        · simp [later, here]
        · simp [later, here, Ne.symm here]

theorem low_bit_eq_test_bit (value : UInt64) {place : Nat} (below : place < 64) :
    ((value >>> UInt64.ofNat place) &&& 1 == 1) = value.toNat.testBit place := by
  have place_eq : (UInt64.ofNat place).toNat = place := by
    rw [UInt64.toNat_ofNat']
    exact Nat.mod_eq_of_lt (by omega)
  rw [Bool.eq_iff_iff, beq_iff_eq, ← UInt64.toNat_inj, UInt64.toNat_and, UInt64.toNat_shiftRight,
    place_eq, Nat.mod_eq_of_lt below, Nat.testBit_eq_decide_div_mod_eq, decide_eq_true_iff,
    Nat.shiftRight_eq_div_pow]
  exact Eq.congr (Nat.and_one_is_mod _) rfl

theorem with_register_value_eq (index : BasisState) {qubits : Nat}
    (fits : qubits ≤ widestRegister) (value : UInt64) :
    withRegisterValue index qubits value = index.spell (List.range qubits) value.toNat := by
  apply BasisState.ext_is_one
  intro position inside
  rw [withRegisterValue, is_one_foldl_set_bits, BasisState.spell, BasisState.is_one_of_bits]
  simp only [inside, and_true, decide_true, Bool.and_true, List.mem_range]
  by_cases below : position < qubits
  · have listed : qubits - 1 - position < (List.range qubits).reverse.length := by
      rw [List.length_reverse, List.length_range]
      omega
    have counted := (List.nodup_reverse.2 List.nodup_range).idxOf_getElem _ listed
    have there : (List.range qubits).reverse[qubits - 1 - position] = position := by
      simp
      omega
    rw [there] at counted
    rw [if_pos below, if_pos below, counted]
    simp only [widestRegister] at fits
    exact low_bit_eq_test_bit value (by omega)
  · rw [if_neg below, if_neg below]

theorem to_nat_register_mask {qubits : Nat} (fits : qubits ≤ widestRegister) :
    (registerMask qubits).toNat = 2 ^ qubits - 1 := by
  rw [registerMask]
  split_ifs with whole
  · rw [whole]
    rfl
  · have below : qubits < 64 := Nat.lt_of_le_of_ne fits whole
    have amount : (UInt64.ofNat qubits).toNat = qubits := by
      rw [UInt64.toNat_ofNat']
      exact Nat.mod_eq_of_lt (by omega)
    have power : (1 <<< UInt64.ofNat qubits : UInt64).toNat = 2 ^ qubits := by
      rw [UInt64.toNat_shiftLeft, amount, Nat.mod_eq_of_lt below]
      change 1 <<< qubits % 2 ^ 64 = _
      rw [Nat.one_shiftLeft]
      exact Nat.mod_eq_of_lt (Nat.pow_lt_pow_right (by decide) below)
    have positive : (1 : UInt64) ≤ 1 <<< UInt64.ofNat qubits := by
      rw [UInt64.le_iff_toNat_le, power]
      exact Nat.two_pow_pos qubits
    rw [UInt64.toNat_sub_of_le _ _ positive, power]
    rfl

theorem shift_index_eq (index : BasisState) {qubits : Nat} (fits : qubits ≤ widestRegister)
    (offset : UInt64) :
    shiftIndex qubits offset index =
      BasisState.addAt (List.range qubits) offset.toNat index := by
  have divides : 2 ^ qubits ∣ 2 ^ 64 := Nat.pow_dvd_pow 2 fits
  have sum : ((registerValue index qubits + offset) &&& registerMask qubits).toNat =
      (index.numberAt (List.range qubits) + offset.toNat) % 2 ^ qubits := by
    rw [UInt64.toNat_and, to_nat_register_mask fits, Nat.and_two_pow_sub_one_eq_mod,
      UInt64.toNat_add, Nat.mod_mod_of_dvd _ divides, to_nat_register_value index fits]
  rw [shiftIndex, with_register_value_eq index fits, sum, BasisState.addAt, List.length_range]
  congr 1

/-- Reducing to a word keeps the number modulo the range of a register that fits into one. -/
theorem bmod_word_mod (value : Int) {qubits : Nat} (fits : qubits ≤ widestRegister) :
    value.bmod (2 ^ 64) % (2 ^ qubits : Nat) = value % (2 ^ qubits : Nat) := by
  have divides : ((2 ^ qubits : Nat) : Int) ∣ (2 ^ 64 : Nat) := by
    exact_mod_cast Nat.pow_dvd_pow 2 fits
  rw [← Int.emod_emod_of_dvd _ divides, Int.bmod_emod, Int.emod_emod_of_dvd _ divides]

theorem to_nat_amount (constant : Int64) {qubits : Nat} (fits : qubits ≤ widestRegister) :
    (constant.toUInt64.toNat : Int) % (2 ^ qubits : Nat) =
      constant.toInt % (2 ^ qubits : Nat) := by
  rw [← constant.toInt_toBitVec, BitVec.toInt_eq_toNat_bmod, Int64.toNat_toBitVec,
    bmod_word_mod _ fits]

theorem to_int_neg (constant : Int64) {qubits : Nat} (fits : qubits ≤ widestRegister) :
    (-constant).toInt % (2 ^ qubits : Nat) = -constant.toInt % (2 ^ qubits : Nat) := by
  rw [Int64.toInt_neg, bmod_word_mod _ fits]

theorem first_inside {qubits : Nat} (fits : qubits ≤ widestRegister) :
    ∀ slot ∈ List.range qubits, slot < width :=
  fun _ member => Nat.lt_of_lt_of_le (List.mem_range.1 member) (Nat.le_trans fits (by decide))

/-! ### What the plugin does -/

/-- The amount that a call adds. -/
def amount (constant : Int64) (inverse : Bool) : Int :=
  if inverse then -constant.toInt else constant.toInt

variable {R : Type} [Scalar R]

/-- Where the plugin runs, it shifts by a word that is the amount modulo the register's range. -/
theorem run_eq_shift {call : PluginCall R} (fits : call.targets ≤ widestRegister)
    (some : call.targets ≠ 0) {constant : Int64}
    (reads : readConstant call.arguments = .ok constant) :
    ∃ offset : UInt64, plugin.run call = (shift call.state call.targets offset, .ok ()) ∧
      (offset.toNat : Int) % (2 ^ call.targets : Nat) =
        amount constant call.inverse % (2 ^ call.targets : Nat) := by
  have transformed : transform call = .ok (shift call.state call.targets
      (if call.inverse then -constant else constant).toUInt64) := by
    rw [transform, if_neg (Nat.not_lt_of_le fits), reads]
    change (if call.targets = 0 then _ else _) = _
    rw [if_neg some]
  refine ⟨(if call.inverse then -constant else constant).toUInt64, ?_, ?_⟩
  · simp only [plugin, transformed, Plugin.succeed]
  · rw [to_nat_amount _ fits, amount]
    cases call.inverse with
    | true => exact to_int_neg constant fits
    | false => rfl

theorem run_fails {call : PluginCall R} {failure : Failure}
    (failed : transform call = .error failure) :
    plugin.run call = Plugin.fail name failure.reason call.state := by
  simp only [plugin, failed]

/-- Whether the plugin gives up depends on the number of targets and on the text of the constant,
and so does what it answers then. -/
theorem gives_up_or_reads (targets : Nat) (arguments : String) :
    (∃ reason : String, ∀ call : PluginCall R, call.targets = targets →
      call.arguments = arguments → plugin.run call = Plugin.fail name reason call.state) ∨
    (targets ≤ widestRegister ∧ ∃ constant, readConstant arguments = .ok constant) := by
  by_cases wide : widestRegister < targets
  · refine Or.inl ⟨(Failure.tooWide targets).reason, fun call count _ => run_fails ?_⟩
    rw [transform, count, if_pos wide]
  · cases reads : readConstant arguments with
    | error failure =>
        refine Or.inl ⟨failure.reason, fun call count text => run_fails ?_⟩
        rw [transform, count, if_neg wide, text, reads]
        rfl
    | ok constant => exact Or.inr ⟨Nat.le_of_not_lt wide, constant, rfl⟩

theorem get_shift (state : SparseState R) {qubits : Nat} (fits : qubits ≤ widestRegister)
    {offset : UInt64} {amount : Int}
    (same : (offset.toNat : Int) % (2 ^ qubits : Nat) = amount % (2 ^ qubits : Nat))
    (index : BasisState) :
    (shift state qubits offset).get? (BasisState.addAt (List.range qubits) amount index) =
      (state.get? index).filter Amplitude.isKept := by
  have inside := first_inside fits
  have moves (index : BasisState) : shiftIndex qubits offset index =
      BasisState.addAt (List.range qubits) amount index := by
    rw [shift_index_eq index fits]
    apply BasisState.add_at_congr
    rw [List.length_range]
    exact same
  have returns := BasisState.add_at_neg List.nodup_range inside amount
  have arrives := BasisState.add_at_neg List.nodup_range inside (-amount)
  rw [neg_neg] at arrives
  have moved : (state.rekey (BasisState.addAt (List.range qubits) amount)).get?
      (BasisState.addAt (List.range qubits) amount index) = state.get? index := by
    rw [SparseState.get_rekey_inverse state returns arrives, returns]
  rw [← moved, shift, SparseState.replace, SparseState.get_of_amplitudes]
  simp only [moves]
  rfl

end AddConstant

/-! ### Adding to qubits -/

namespace Simulator

open AddConstant

variable {R : Type} [Scalar R]
  (zeroAdd : ∀ amplitude : Amplitude R, Amplitude.zero.add amplitude = amplitude)

include zeroAdd

/-- Seen from the slots, amplitudes move to where the amount has been added if all live controls
are 1, and stay where they are otherwise; those that are not kept are lost. -/
theorem get_after_adding {targets live : List Nat} (distinct : (targets ++ live).Nodup)
    (inside : ∀ slot ∈ targets ++ live, slot < width) {merged left after : SparseState R}
    {call : PluginCall R} (count : call.targets = targets.length)
    (hands : Hands merged (Layout.permutation (Layout.swaps (targets ++ live))) live call)
    (takes : TakesBack merged left after
      (Layout.permutation (Layout.swaps (targets ++ live))) live)
    (ran : plugin.run call = (left, .ok ())) {amount : Int}
    (shifts : ∀ index, left.get? (BasisState.addAt (List.range call.targets) amount index) =
      (call.state.get? index).filter Amplitude.isKept) (index : BasisState) :
    after.get? (BasisState.addWhere live targets amount index) =
      (merged.get? index).filter Amplitude.isKept := by
  have rearranges := Layout.rearranges_permutation (Layout.swaps_bounded distinct inside)
  have apart : List.Disjoint targets live := List.disjoint_of_nodup_append distinct
  have targetsDistinct : targets.Nodup := distinct.of_append_left
  have targetsInside : ∀ slot ∈ targets, slot < width :=
    fun slot member => inside slot (List.mem_append_left live member)
  have front : targets.map (Layout.permutation (Layout.swaps (targets ++ live))) =
      List.range call.targets := by
    have whole := Layout.permutation_swaps distinct
    rw [List.map_append, List.length_append, List.range_add] at whole
    rw [count]
    exact List.append_inj_left whole (by rw [List.length_map, List.length_range])
  have twice (found : Option (Amplitude R)) :
      (found.filter Amplitude.isKept).filter Amplitude.isKept = found.filter Amplitude.isKept := by
    rw [Option.filter_filter]
    simp only [Bool.and_self]
  rw [BasisState.addWhere]
  split_ifs with ones
  · rw [takes, BasisState.all_ones_add_at apart, if_pos ones,
      BasisState.permute_add_at targetsDistinct targetsInside rearranges, front]
    change (left.get? _).filter Amplitude.isKept = _
    rw [shifts, hands, if_pos ones, twice, twice]
  · rw [get_after_of_keeps distinct inside count hands (keeps_others call left ran) takes apart
      (by simpa using ones)]
    congr 1
    rw [funext zeroAdd]
    exact Option.map_id'

omit zeroAdd in
/-- The limit on slots does not matter to a plugin. -/
theorem apply_plugin_eq_of_sound {before : Simulator R} (sound : before.Sound)
    {targets controls : List QubitId} {first place : Nat} {rest controlSlots live : List Nat}
    (found : before.Operands (targets ++ controls) (first :: rest ++ controlSlots))
    (count : (first :: rest).length = targets.length) (matters : Live before controlSlots live)
    {merged : Arena R} {partition : Partition R}
    (gathers : Arena.Gathers before.arena merged first (rest ++ live) place partition)
    (plugin : Plugin R) (arguments : String) (inverse : Bool) :
    let sigma := Layout.permutation (Layout.swaps (first :: rest ++ live))
    let call := handed (partition.state.permute sigma) targets.length live.length arguments inverse
    applyPlugin plugin targets arguments inverse controls before =
      answered before merged place partition.state sigma call (plugin.run call) := by
  intro sigma call
  have unlimited := of_unlimited
    (apply_plugin_ignores_limit plugin targets arguments inverse controls) before
  rw [apply_plugin_eq sound.unlimited found count (Live.limited.2 matters) gathers rfl rfl plugin]
    at unlimited
  rw [unlimited]
  change resultUnder before.maxQubits (answered (before.underLimit width) merged place
    partition.state sigma call (plugin.run call)) = _
  rcases plugin.run call with ⟨left, stop | ⟨⟩⟩ <;> rfl

omit zeroAdd in
/-- A control that is known to be 0 makes a call do nothing. -/
theorem apply_plugin_skipped {before : Simulator R} (sound : before.Sound)
    {targets controls : List QubitId} {targetSlots controlSlots : List Nat}
    (found : before.Operands (targets ++ controls) (targetSlots ++ controlSlots))
    (count : targetSlots.length = targets.length)
    (decided : ∃ slot ∈ controlSlots, before.arena.known? slot = some false)
    (plugin : Plugin R) (arguments : String) (inverse : Bool) :
    applyPlugin plugin targets arguments inverse controls before = .ok none before := by
  have read := (slots_of_operands before _ _).2 found
  have nothing : before.liveControls controlSlots = .ok none := by
    rw [← live_controls_under_limit before width, live_controls_eq sound.unlimited
      fun slot member => found.allocated (List.mem_append_right _ member)]
    exact congrArg Except.ok (if_pos decided)
  have behind : (targetSlots ++ controlSlots).drop targets.length = controlSlots := by
    rw [← count, List.drop_left]
  rw [applyPlugin, Action.bind_of_ok (operands_of_found read), Action.bind_get, behind, nothing]
  rfl

theorem add_succeeds {before : Simulator R} (sound : before.Sound) {targets controls : List QubitId}
    {first place : Nat} {rest controlSlots live : List Nat}
    (found : before.Operands (targets ++ controls) (first :: rest ++ controlSlots))
    (count : (first :: rest).length = targets.length) (fits : targets.length ≤ widestRegister)
    (matters : Live before controlSlots live) {merged : Arena R} {partition : Partition R}
    (gathers : Arena.Gathers before.arena merged first (rest ++ live) place partition)
    {arguments : String} {constant : Int64}
    (reads : readConstant arguments = .ok constant) (inverse : Bool) :
    ∃ (call : PluginCall R) (added : SparseState R),
      applyPlugin plugin targets arguments inverse controls before =
        .ok (some call) { before with arena := merged.withState place added } ∧
      ∀ index, added.get? (BasisState.addWhere live (first :: rest) (amount constant inverse)
        index) = (partition.state.get? index).filter Amplitude.isKept := by
  have someTarget : targets.length ≠ 0 := by
    rw [← count]
    exact Nat.succ_ne_zero rest.length
  have foundUnlimited : (before.underLimit width).Operands (targets ++ controls)
      (first :: rest ++ controlSlots) := found
  have mattersUnlimited : Live (before.underLimit width) controlSlots live :=
    Live.limited.2 matters
  have distinct := foundUnlimited.live_distinct mattersUnlimited sound.unlimited
  have inside := foundUnlimited.live_lt_width mattersUnlimited sound.unlimited
  let sigma := Layout.permutation (Layout.swaps (first :: rest ++ live))
  let call := handed (partition.state.permute sigma) targets.length live.length arguments inverse
  have answer : applyPlugin plugin targets arguments inverse controls before =
      answered before merged place partition.state sigma call (plugin.run call) :=
    apply_plugin_eq_of_sound sound found count matters gathers plugin arguments inverse
  have size : call.targets = (first :: rest).length := count.symm
  have hands : Hands partition.state sigma live call := by
    simp only [call, ← count]
    exact handed_hands distinct inside partition.state arguments inverse
  obtain ⟨offset, ran, same⟩ := @run_eq_shift R _ call fits someTarget constant reads
  have takes := rejoined_takes_back distinct inside partition.state
    (shift call.state call.targets offset)
  rw [ran] at answer
  refine ⟨call, _, answer, fun index => ?_⟩
  have shifts := get_shift call.state fits same
  refine get_after_adding zeroAdd distinct inside size hands ?_ ran shifts index
  simp only [call, ← count] at takes ⊢
  exact takes

end Simulator

end SparseQuantum
