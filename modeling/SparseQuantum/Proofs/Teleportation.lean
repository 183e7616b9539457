import Mathlib
import SparseQuantum.Demo.Programs
import SparseQuantum.Proofs.LosslessRuns

/-!
# Teleportation

The program rotates qubit 0, entangles qubits 1 and 2, measures qubits 0 and 1, and corrects qubit 2
as the two bits say. Up to the measurements the amplitudes of the three qubits are real numbers that
depend on their bits, and so they can be followed gate by gate. Whatever is measured then, one of
the amplitudes of qubit 2 is a multiple of the cosine and the other one of the sine, and each
correction puts one thing right: which is which, or the sign. As the probabilities add up to 1, the
dump shows the squares of the cosine and the sine.
-/

namespace SparseQuantum

set_option autoImplicit false

variable {R : Type}

open Simulator

/-! ### Real amplitudes by bits -/

section Bits

open Classical in
/-- Real amplitudes that depend on the bits of the first qubits. Where another bit is 1 there is
none. -/
noncomputable def amplitudesOn [Scalar R] (count : Nat) (amplitude : (Nat → Bool) → R)
    (index : BasisState) : Amplitude R :=
  if index.Inside (List.range count) then ⟨amplitude index.isOne, 0⟩ else 0

def Matrix2.real [Scalar R] (a b c d : R) : Matrix2 R := ⟨⟨a, 0⟩, ⟨b, 0⟩, ⟨c, 0⟩, ⟨d, 0⟩⟩

def actOnBits [Scalar R] (a b c d : R) (target : Nat) (controls : List Nat)
    (amplitude : (Nat → Bool) → R) (bits : Nat → Bool) : R :=
  if controls.all bits then
    if bits target then d * amplitude bits + c * amplitude (Function.update bits target false)
    else a * amplitude bits + b * amplitude (Function.update bits target true)
  else amplitude bits

variable [ExactScalar R] {count : Nat}

theorem act_amplitudes_on (bound : count ≤ width) {target : Nat} (inside : target < count)
    (a b c d : R) (controls : List Nat) (amplitude : (Nat → Bool) → R) :
    (Matrix2.real a b c d).act target controls (amplitudesOn count amplitude) =
      amplitudesOn count (actOnBits a b c d target controls amplitude) := by
  funext index
  have flipped : (index.flip target).isOne =
      Function.update index.isOne target (!index.isOne target) := by
    funext position
    by_cases here : position = target
    · rw [here, Function.update_self, BasisState.is_one_flip_self index (by omega)]
    · rw [Function.update_of_ne here, BasisState.is_one_flip_of_ne index (Ne.symm here)]
  have member : target ∈ List.range count := List.mem_range.2 inside
  have alike : (index.flip target).Inside (List.range count) ↔ index.Inside (List.range count) := by
    refine ⟨fun flip => ?_, fun whole => BasisState.inside_flip whole member⟩
    rw [← BasisState.flip_flip index target]
    exact BasisState.inside_flip flip member
  have times (x y : R) : (⟨x, 0⟩ * ⟨y, 0⟩ : Amplitude R) = ⟨x * y, 0⟩ :=
    Amplitude.ext_parts (by rw [Amplitude.mul_re]; ring) (by rw [Amplitude.mul_im]; ring)
  have plus (x y : R) : (⟨x, 0⟩ + ⟨y, 0⟩ : Amplitude R) = ⟨x + y, 0⟩ :=
    Amplitude.ext_parts rfl (by rw [Amplitude.add_im]; ring)
  have ones : index.allOnes controls = controls.all index.isOne := rfl
  by_cases whole : index.Inside (List.range count)
  · simp only [Matrix2.act, amplitudesOn, actOnBits, Matrix2.real, alike, whole, if_true, flipped,
      ones, times, plus]
    cases index.isOne target <;> split_ifs <;> simp_all
  · simp [Matrix2.act, amplitudesOn, alike, whole]

theorem value_ground_on (count : Nat) :
    (SparseState.ground : SparseState R).value =
      amplitudesOn count fun bits => if (List.range count).any bits then 0 else 1 := by
  funext index
  rw [SparseState.value_ground, amplitudesOn]
  by_cases ground : index = .zero
  · have nothing : (List.range count).any index.isOne = false := by
      simp [ground]
    rw [if_pos ground, if_pos (by rw [ground]; exact BasisState.inside_zero _), nothing]
    rfl
  · rw [if_neg ground]
    split_ifs with whole some
    · rfl
    · refine absurd (BasisState.ext_is_one fun position _ => ?_) ground
      rw [BasisState.is_one_zero, Bool.eq_false_iff]
      exact fun one => some (List.any_eq_true.2 ⟨position, whole position one, one⟩)
    · rfl

end Bits

namespace Teleportation

/-! ### The program -/

def qubits : List QubitId := [⟨0⟩, ⟨1⟩, ⟨2⟩]

def circuit (angle : R) : List (GateCall R) :=
  [⟨.rotateY angle, ⟨0⟩, []⟩, ⟨.h, ⟨1⟩, []⟩, ⟨.x, ⟨2⟩, [⟨1⟩]⟩, ⟨.x, ⟨1⟩, [⟨0⟩]⟩, ⟨.h, ⟨0⟩, []⟩]

def preparation (angle : R) : List (Instruction R) :=
  qubits.map (Instruction.alloc · false) ++
    ((circuit angle).map GateCall.instruction ++ [.measure [⟨0⟩] ⟨1⟩, .measure [⟨1⟩] ⟨2⟩])

/-- The blocks of the program, with the corrections between the measurements and the dump. -/
def graph (angle : R) : BlockGraph R where
  blocks := [
    ⟨"prepare", preparation angle, .branch ⟨2⟩ 1 2⟩,
    ⟨"fix_x", [.gate .x ⟨2⟩ []], .jump 2⟩,
    ⟨"check_z", [], .branch ⟨1⟩ 3 4⟩,
    ⟨"fix_z", [.gate .z ⟨2⟩ []], .jump 4⟩,
    ⟨"done", [.dump [⟨2⟩], .measure [⟨2⟩] ⟨0⟩] ++ qubits.map (Instruction.free · false), .stop⟩]
  entry := 0
  last := 4

theorem resolve_teleport (angle : R) : (Demo.teleport angle).resolve = .ok (graph angle) := by
  cbv

/-! ### Gate by gate -/

section Amplitudes

variable [ExactAngles R]

theorem place_zero : qubits.idxOf ⟨0⟩ = 0 := rfl

theorem place_one : qubits.idxOf ⟨1⟩ = 1 := rfl

theorem place_two : qubits.idxOf ⟨2⟩ = 2 := rfl

theorem act_on_three {call : GateCall R} {slot : Nat} {a b c d : R}
    {before after : (Nat → Bool) → R} (matrix : call.gate.matrix = .real a b c d)
    (place : qubits.idxOf call.target = slot) (inside : slot < 3)
    (acts : ∀ bits, actOnBits a b c d slot (call.controls.map qubits.idxOf) before bits =
      after bits) :
    call.act qubits (amplitudesOn 3 before) = amplitudesOn 3 after := by
  rw [GateCall.act, matrix, place, act_amplitudes_on (by decide) inside, funext acts]

theorem matrix_rotate_y (angle : R) : (Gate.rotateY angle).matrix =
    .real (Scalar.cos (Scalar.half angle)) (-Scalar.sin (Scalar.half angle))
      (Scalar.sin (Scalar.half angle)) (Scalar.cos (Scalar.half angle)) := by
  rw [Gate.matrix, Matrix2.u3, Amplitude.neg_polar, add_zero, Amplitude.polar_zero_right,
    Amplitude.polar_zero_right, Amplitude.polar_zero_right]
  rfl

theorem matrix_hadamard : (Gate.h : Gate R).matrix =
    .real Scalar.invSqrtTwo Scalar.invSqrtTwo Scalar.invSqrtTwo (-Scalar.invSqrtTwo) := by
  rw [Gate.matrix, Matrix2.hadamard, Matrix2.real, Amplitude.neg, neg_zero]

theorem matrix_flip : (Gate.x : Gate R).matrix = .real 0 1 1 0 := rfl

theorem matrix_turn : (Gate.z : Gate R).matrix = .real 1 0 0 (-1) := by
  rw [Gate.matrix, Matrix2.diagonal]
  rfl

section Stages

variable (cosine sine : R)

def given (bits : Nat → Bool) : R := if bits 0 then sine else cosine

def rotated (bits : Nat → Bool) : R := if bits 1 || bits 2 then 0 else given cosine sine bits

def spread (bits : Nat → Bool) : R :=
  if bits 2 then 0 else Scalar.invSqrtTwo * given cosine sine bits

def paired (bits : Nat → Bool) : R :=
  if bits 2 = bits 1 then Scalar.invSqrtTwo * given cosine sine bits else 0

def compared (bits : Nat → Bool) : R :=
  if bits 2 = (bits 0 ^^ bits 1) then Scalar.invSqrtTwo * given cosine sine bits else 0

def entangled (bits : Nat → Bool) : R :=
  Scalar.invSqrtTwo * (Scalar.invSqrtTwo *
    if bits 2 = bits 1 then cosine else if bits 0 then -sine else sine)

end Stages

variable (angle : R)

theorem act_rotation :
    GateCall.act qubits ⟨.rotateY angle, ⟨0⟩, []⟩ SparseState.ground.value =
      amplitudesOn 3
        (rotated (Scalar.cos (Scalar.half angle)) (Scalar.sin (Scalar.half angle))) := by
  rw [value_ground_on 3]
  refine act_on_three (matrix_rotate_y angle) place_zero (by decide) fun bits => ?_
  cases zero : bits 0 <;> cases one : bits 1 <;> cases two : bits 2 <;>
    simp [actOnBits, rotated, given, List.range_succ, zero, one, two]

variable (cosine sine : R)

theorem act_spreading : GateCall.act qubits ⟨.h, ⟨1⟩, []⟩ (amplitudesOn 3 (rotated cosine sine)) =
    amplitudesOn 3 (spread cosine sine) := by
  refine act_on_three matrix_hadamard place_one (by decide) fun bits => ?_
  cases one : bits 1 <;> cases two : bits 2 <;>
    simp [actOnBits, rotated, spread, given, one, two]

theorem act_pairing : GateCall.act qubits ⟨.x, ⟨2⟩, [⟨1⟩]⟩ (amplitudesOn 3 (spread cosine sine)) =
    amplitudesOn 3 (paired cosine sine) := by
  refine act_on_three matrix_flip place_two (by decide) fun bits => ?_
  cases one : bits 1 <;> cases two : bits 2 <;>
    simp [actOnBits, spread, paired, given, place_one, one, two]

theorem act_comparing :
    GateCall.act qubits ⟨.x, ⟨1⟩, [⟨0⟩]⟩ (amplitudesOn 3 (paired cosine sine)) =
      amplitudesOn 3 (compared cosine sine) := by
  refine act_on_three matrix_flip place_one (by decide) fun bits => ?_
  cases zero : bits 0 <;> cases one : bits 1 <;> cases two : bits 2 <;>
    simp [actOnBits, paired, compared, given, place_zero, zero, one, two]

theorem act_mixing : GateCall.act qubits ⟨.h, ⟨0⟩, []⟩ (amplitudesOn 3 (compared cosine sine)) =
    amplitudesOn 3 (entangled cosine sine) := by
  refine act_on_three matrix_hadamard place_zero (by decide) fun bits => ?_
  cases zero : bits 0 <;> cases one : bits 1 <;> cases two : bits 2 <;>
    simp [actOnBits, compared, entangled, given, zero, one, two]

theorem act_all_circuit :
    actAll qubits (circuit angle) SparseState.ground.value =
      amplitudesOn 3
        (entangled (Scalar.cos (Scalar.half angle)) (Scalar.sin (Scalar.half angle))) := by
  rw [circuit, actAll, List.foldl_cons, act_rotation, List.foldl_cons, act_spreading,
    List.foldl_cons, act_pairing, List.foldl_cons, act_comparing, List.foldl_cons, act_mixing,
    List.foldl_nil]

/-! ### Angles for which nothing is lost -/

def Noticed (part : R) : Prop := part = 0 ∨ (⟨part, 0⟩ : Amplitude R).isKept = true

theorem noticed_neg {part : R} (noticed : Noticed part) : Noticed (-part) := by
  refine noticed.imp neg_eq_zero.2 fun kept => Amplitude.is_kept_of_norm_sq_le kept (le_of_eq ?_)
  rw [Amplitude.norm_sq_eq, Amplitude.norm_sq_eq]
  ring

theorem noticed_of_mixed {part : R} (noticed : Noticed (Scalar.invSqrtTwo * part)) :
    Noticed part := by
  have half := ExactAngles.inv_sqrt_two_mul_self (R := R)
  refine noticed.imp (fun nothing => ?_) fun kept => Amplitude.is_kept_of_norm_sq_le kept ?_
  · refine (mul_eq_zero.1 nothing).resolve_left fun zero => ?_
    rw [zero, mul_zero] at half
    exact one_half_pos.ne half
  · rw [Amplitude.norm_sq_eq, Amplitude.norm_sq_eq]
    have square : Scalar.invSqrtTwo * part * (Scalar.invSqrtTwo * part) * 2 = part * part := by
      linear_combination 2 * part * part * half
    have positive := mul_self_nonneg part
    linarith

theorem spares_on_three {call : GateCall R} {before : BasisState → Amplitude R}
    {after : (Nat → Bool) → R} (acts : call.act qubits before = amplitudesOn 3 after)
    (noticed : ∀ bits, Noticed (after bits)) :
    call.gate.Spares (qubits.idxOf call.target) (call.controls.map qubits.idxOf) before := by
  refine Or.inr fun index => ?_
  change call.act qubits before index = 0 ∨ (call.act qubits before index).isKept = true
  rw [acts, amplitudesOn]
  split_ifs
  · refine (noticed index.isOne).imp_left fun nothing => ?_
    rw [nothing]
    rfl
  · exact Or.inl rfl

theorem spares_circuit
    (noticedCos : Noticed (Scalar.invSqrtTwo *
      (Scalar.invSqrtTwo * Scalar.cos (Scalar.half angle))))
    (noticedSin : Noticed (Scalar.invSqrtTwo *
      (Scalar.invSqrtTwo * Scalar.sin (Scalar.half angle)))) :
    SparesAll qubits (circuit angle) (SparseState.ground : SparseState R).value := by
  have zero : Noticed (0 : R) := Or.inl rfl
  refine ⟨spares_on_three (act_rotation angle) fun bits => ?_, ?_⟩
  · rw [rotated, given]
    split_ifs
    · exact zero
    · exact noticed_of_mixed (noticed_of_mixed noticedSin)
    · exact noticed_of_mixed (noticed_of_mixed noticedCos)
  rw [act_rotation]
  refine ⟨spares_on_three (act_spreading _ _) fun bits => ?_, Or.inl rfl, Or.inl rfl, ?_⟩
  · rw [spread, given]
    split_ifs
    · exact zero
    · exact noticed_of_mixed noticedSin
    · exact noticed_of_mixed noticedCos
  rw [act_spreading, act_pairing, act_comparing]
  refine ⟨spares_on_three (act_mixing _ _) fun bits => ?_, trivial⟩
  rw [entangled]
  split_ifs
  · exact noticedCos
  · rw [mul_neg, mul_neg]
    exact noticed_neg noticedSin
  · exact noticedSin

end Amplitudes

/-! ### Bits that were measured -/

def received [Zero R] (first second : Bool) (onZero onOne : R) (bits : Nat → Bool) : R :=
  if bits 0 = first ∧ bits 1 = second then if bits 2 then onOne else onZero else 0

/-- Where two bits were measured, one amplitude is a multiple of the cosine and the other one, up to
its sign, of the sine. -/
theorem received_of_entangled [ExactAngles R] (cosine sine : R) (first second : Bool)
    (down further : R) (bits : Nat → Bool) :
    (if bits 1 = second then
      (if bits 0 = first then entangled cosine sine bits / down else 0) / further else 0) =
      received first second
        (Scalar.invSqrtTwo * Scalar.invSqrtTwo / down / further *
          if second then (if first then -sine else sine) else cosine)
        (Scalar.invSqrtTwo * Scalar.invSqrtTwo / down / further *
          if second then cosine else if first then -sine else sine) bits := by
  rw [received]
  by_cases zero : bits 0 = first
  · by_cases one : bits 1 = second
    · rw [if_pos one, if_pos zero, if_pos ⟨zero, one⟩, entangled, one, zero]
      generalize (if first = true then -sine else sine) = signed
      cases bits 2 <;> cases second <;> simp <;> ring
    · rw [if_neg one, if_neg fun both => one both.2]
  · rw [if_neg zero, zero_div, ite_self, if_neg fun both => zero both.1]

/-- Qubits 0 and 1 were measured into registers 1 and 2, and qubit 2 has these amplitudes. -/
structure Sent [ExactScalar R] (simulator : Simulator R) (first second : Bool) (onZero onOne : R) :
    Prop where
  physical : simulator.Physical
  laid_out : simulator.LaidOut qubits
  value : simulator.globalState.value = amplitudesOn 3 (received first second onZero onOne)
  first_register : simulator.register ⟨1⟩ = if first then 1 else 0
  second_register : simulator.register ⟨2⟩ = if second then 1 else 0
  no_dump : simulator.dumps = #[]

/-- The bits are in registers 1 and 2, and there is one dump, of one qubit, with these
probabilities. -/
structure Delivered [Scalar R] (simulator : Simulator R) (first second : Bool) (zero one : R) :
    Prop where
  first_register : simulator.register ⟨1⟩ = if first then 1 else 0
  second_register : simulator.register ⟨2⟩ = if second then 1 else 0
  dumped : ∃ record, simulator.dumps = #[record] ∧ record.qubits = 1 ∧
    record.probability 0 = zero ∧ record.probability 1 = one

section Measured

variable [ExactScalar R] {simulator : Simulator R} {first second : Bool} {onZero onOne : R}

theorem Sent.branch (sent : Sent simulator first second onZero onOne) (bit : Bool) :
    simulator.globalState.branchProbability 2 bit =
      if bit then onOne ^ 2 else onZero ^ 2 := by
  let bits (position : Nat) : Bool := [first, second, bit].getD position false
  let place := BasisState.ofBits bits
  have shows : place.isOne = bits := by
    funext position
    rw [BasisState.is_one_of_bits]
    by_cases inside : position < width
    · rw [decide_eq_true inside, Bool.and_true]
    · have outside : bits position = false :=
        List.getD_eq_default _ _ (Nat.le_trans (show 3 ≤ width by decide) (Nat.le_of_not_lt inside))
      rw [outside, Bool.false_and]
  have inside : place.Inside (List.range 3) := by
    intro position one
    rw [shows] at one
    by_contra outside
    rw [List.mem_range, Nat.not_lt] at outside
    rw [show bits position = false from List.getD_eq_default _ _ outside] at one
    cases one
  have alone (index : BasisState) (whole : index.Inside (List.range 3))
      (zero : index.isOne 0 = first) (one : index.isOne 1 = second) (two : index.isOne 2 = bit) :
      index = place := by
    apply BasisState.ext_is_one
    intro position _
    rw [shows]
    by_cases small : position < 3
    · interval_cases position
      · exact zero
      · exact one
      · exact two
    · have outside : index.isOne position = false :=
        Bool.eq_false_iff.2 fun other => small (List.mem_range.1 (whole position other))
      rw [outside]
      exact (List.getD_eq_default _ _ (Nat.le_of_not_lt small)).symm
  rw [SparseState.branch_probability_eq, SparseState.weight_eq_sum, sent.value,
    Finset.sum_eq_single place]
  · rw [amplitudesOn, if_pos inside, shows]
    cases bit <;> simp [bits, received, Amplitude.norm_sq_eq, sq]
  · intro index _ different
    rw [ite_eq_right_iff, amplitudesOn]
    intro shown
    split_ifs with whole
    · rw [received, if_neg]
      · exact (Amplitude.norm_sq_eq_zero_iff _).2 rfl
      · exact fun both => different (alone index whole both.1 both.2 (eq_of_beq shown))
    · exact (Amplitude.norm_sq_eq_zero_iff _).2 rfl
  · exact fun absent => absurd (Finset.mem_univ place) absent

theorem Sent.total (sent : Sent simulator first second onZero onOne) :
    onZero ^ 2 + onOne ^ 2 = 1 := by
  have total := sent.physical.total_probability
  rw [SparseState.total_eq_branches _ 2, sent.branch, sent.branch] at total
  exact total

theorem measured_on {slot count : Nat} {bit : Bool} {scale : R} {amplitude : (Nat → Bool) → R}
    (index : BasisState) :
    (if index.isOne slot = bit then (amplitudesOn count amplitude index).scaleDown scale else 0) =
      amplitudesOn count (fun bits => if bits slot = bit then amplitude bits / scale else 0)
        index := by
  rw [amplitudesOn, amplitudesOn]
  split_ifs
  · exact Amplitude.ext_parts rfl (zero_div scale)
  · exact Amplitude.scale_down_zero scale
  · rfl
  · rfl

theorem execute_measured_one (registry : Registry R) (label : String) {state : RunState R}
    {amplitude : (Nat → Bool) → R} (physical : state.simulator.Physical)
    (laidOut : state.simulator.LaidOut qubits)
    (value : state.simulator.globalState.value = amplitudesOn 3 amplitude) {qubit : QubitId}
    (listed : qubit ∈ qubits) (register : RegisterId) :
    ∃ bit after scale,
      Run.execute registry label (.measure [qubit] register) state = .ok () after ∧
      after.simulator.Physical ∧ after.simulator.LaidOut qubits ∧
      after.simulator.globalState.value = amplitudesOn 3 (fun bits =>
        if bits (qubits.idxOf qubit) = bit then amplitude bits / scale else 0) ∧
      after.simulator.registers =
        state.simulator.registers.insert register (if bit then 1 else 0) ∧
      after.simulator.dumps = state.simulator.dumps := by
  let slot := qubits.idxOf qubit
  have found : [qubit].map (state.simulator.allocation[·]?) = [slot].map some :=
    congrArg (fun slot => [slot]) (laidOut.slot_eq listed)
  obtain ⟨shown, after, scale, done, physicalAfter, _, _, values, changed⟩ :=
    Run.execute_measured registry label physical found register
  refine ⟨shown.isOne slot, after, scale, done, physicalAfter, ?_, funext fun index => ?_, ?_, ?_⟩
  · apply laidOut.congr <;> rw [changed]
  · rw [values, value, ← measured_on]
    simp only [List.map_cons, List.map_nil, List.cons.injEq, and_true]
    rfl
  · have packed : ∀ bit, (Run.packBits [bit]).toInt64 = if bit then 1 else 0 := by decide
    rw [changed]
    exact congrArg (state.simulator.registers.insert register) (packed _)
  · rw [changed]

end Measured

/-! ### The blocks -/

section Blocks

variable [ExactAngles R] (angle : R) (registry : Registry R)

omit [ExactAngles R] in
theorem circuit_within : ∀ call ∈ circuit angle, call.Within qubits := by
  simp [circuit, GateCall.Within, qubits]

def start (settings : Settings) (seed : UInt64) (draws : Draws) : RunState R :=
  ⟨(ofSeed settings.maxQubits seed).withDraws draws, []⟩

section Prepare

variable {settings : Settings} (inForce : settings.InForce) (room : 3 ≤ settings.maxQubits)
  (seed : UInt64) (draws : Draws)

include inForce room

theorem allocated (label : String) :
    ∃ after, Run.executeAll registry label (qubits.map (Instruction.alloc · false))
        (start settings seed draws) = .ok () after ∧
      after.simulator.Physical ∧ after.simulator.LaidOut qubits ∧
      after.simulator.globalState.value = SparseState.ground.value ∧
      after.simulator.dumps = #[] := by
  obtain ⟨after, done, physical, laidOut, same, dumps⟩ :=
    @Run.alloc_all R _ registry label qubits [] (start settings seed draws)
      (physical_of_seed seed draws inForce.max_qubits_le)
      (LaidOut.start settings.maxQubits seed draws) (by decide) room
  exact ⟨after, done, physical, laidOut,
    congrArg SparseState.value (same.trans (global_of_seed seed draws)), dumps⟩

/-- Angles for which nothing but zeros is neglected are told by their cosine and sine alone. -/
theorem loses_nothing
    (noticedCos : Noticed (Scalar.invSqrtTwo *
      (Scalar.invSqrtTwo * Scalar.cos (Scalar.half angle))))
    (noticedSin : Noticed (Scalar.invSqrtTwo *
      (Scalar.invSqrtTwo * Scalar.sin (Scalar.half angle)))) :
    Run.LosesNothing (graph angle) registry (graph angle).entry (start settings seed draws) := by
  -- Only the first block has gates that mix amplitudes, and no block leads back to it.
  have turns (label : String) {call : GateCall R} (noMatrix : call.gate.mixing? = none)
      (state : RunState R) : Run.Lossless registry label [call.instruction] state :=
    Run.lossless_cons_iff.2 ⟨GateCall.neglects_only_zeros_of_not_mixing noMatrix _,
      fun _ _ => Run.lossless_of_no_gate (fun _ member => absurd member List.not_mem_nil) _⟩
  have last (state : RunState R) : Run.LosesNothing (graph angle) registry 4 state := by
    refine Run.loses_nothing_of_block rfl (Run.lossless_of_no_gate ?_ _) fun next _ _ follows => ?_
    · simp [qubits, GateCall.instruction]
    · cases follows
  have fixZ (state : RunState R) : Run.LosesNothing (graph angle) registry 3 state := by
    refine Run.loses_nothing_of_block rfl
      (@turns "fix_z" ⟨.z, ⟨2⟩, []⟩ rfl state) fun next middle _ follows => ?_
    cases follows
    exact last middle
  have checkZ (state : RunState R) : Run.LosesNothing (graph angle) registry 2 state := by
    refine Run.loses_nothing_of_block rfl (Run.lossless_of_no_gate ?_ _)
      fun next middle _ follows => ?_
    · exact fun _ member => absurd member List.not_mem_nil
    · have either := Option.some.inj follows
      split_ifs at either <;> rw [← either]
      · exact fixZ middle
      · exact last middle
  have fixX (state : RunState R) : Run.LosesNothing (graph angle) registry 1 state := by
    refine Run.loses_nothing_of_block rfl
      (@turns "fix_x" ⟨.x, ⟨2⟩, []⟩ rfl state) fun next middle _ follows => ?_
    cases follows
    exact checkZ middle
  refine Run.loses_nothing_of_block rfl ?_ fun next middle _ follows => ?_
  · change Run.Lossless registry "prepare" (preparation angle) _
    rw [preparation]
    refine Run.lossless_append_iff.2 ⟨Run.lossless_of_no_gate ?_ _, fun middle done => ?_⟩
    · simp [qubits, GateCall.instruction]
    obtain ⟨_, allocates, physical, laidOut, ground, _⟩ :=
      allocated registry inForce room seed draws "prepare"
    cases allocates.symm.trans done
    refine Run.lossless_append_iff.2 ⟨?_, fun _ _ => Run.lossless_of_no_gate ?_ _⟩
    · apply Run.lossless_of_spares physical laidOut (circuit_within angle)
      rw [ground]
      exact spares_circuit angle noticedCos noticedSin
    · simp [GateCall.instruction]
  · have either := Option.some.inj follows
    split_ifs at either <;> rw [← either]
    · exact fixX middle
    · exact checkZ middle

/-- After the first block one amplitude of qubit 2 is a multiple of the cosine and the other one of
the sine. -/
theorem prepared (lossless : Run.Lossless registry "prepare" (preparation angle)
      (start settings seed draws)) :
    ∃ first second onZero onOne after,
      Run.executeAll registry "prepare" (preparation angle) (start settings seed draws) =
        .ok () after ∧
      Sent after.simulator first second onZero onOne ∧
      onZero ^ 2 = (if second then Scalar.sin (Scalar.half angle) ^ 2
        else Scalar.cos (Scalar.half angle) ^ 2) ∧
      onOne ^ 2 = (if second then Scalar.cos (Scalar.half angle) ^ 2
        else Scalar.sin (Scalar.half angle) ^ 2) := by
  let cosine := Scalar.cos (Scalar.half angle)
  let sine := Scalar.sin (Scalar.half angle)
  rw [preparation] at lossless ⊢
  obtain ⟨_, lossless⟩ := Run.lossless_append_iff.1 lossless
  obtain ⟨ready, allocates, physicalReady, laidOutReady, ground, noDump⟩ :=
    allocated registry inForce room seed draws "prepare"
  obtain ⟨mixed, runs, physicalMixed, laidOutMixed, values, changed⟩ :=
    Run.circuit_runs physicalReady laidOutReady (circuit_within angle)
      (Run.lossless_append_iff.1 (lossless ready allocates)).1
  rw [ground, act_all_circuit] at values
  obtain ⟨first, middle, down, measures, physicalMiddle, laidOutMiddle, valuesMiddle, registers,
    dumps⟩ := execute_measured_one registry "prepare" physicalMixed laidOutMixed values
      (show (⟨0⟩ : QubitId) ∈ qubits by decide) ⟨1⟩
  obtain ⟨second, after, further, again, physical, laidOut, value, registersAfter, dumpsAfter⟩ :=
    execute_measured_one registry "prepare" physicalMiddle laidOutMiddle valuesMiddle
      (show (⟨1⟩ : QubitId) ∈ qubits by decide) ⟨2⟩
  let signed := if first then -sine else sine
  let factor := Scalar.invSqrtTwo * Scalar.invSqrtTwo / down / further
  let onZero := factor * if second then signed else cosine
  let onOne := factor * if second then cosine else signed
  have sent : Sent after.simulator first second onZero onOne := by
    refine ⟨physical, laidOut, value.trans (congrArg _ (funext fun bits => ?_)), ?_, ?_, ?_⟩
    · exact received_of_entangled cosine sine first second down further bits
    · rw [register, registersAfter, get_insert, if_neg (by decide), registers, get_insert,
        if_pos rfl, Option.getD_some]
    · rw [register, registersAfter, get_insert, if_pos rfl, Option.getD_some]
    · rw [dumpsAfter, dumps, changed]
      exact noDump
  -- The bits decide on a sign and on an exchange, which the squares do not show; the common factor
  -- is of magnitude 1, since the probabilities add up to 1.
  have signedSquare : signed ^ 2 = sine ^ 2 := by
    simp only [signed]
    split_ifs <;> ring
  have circle : cosine * cosine + sine * sine = 1 := ExactScalar.cos_sin _
  have one : factor ^ 2 = 1 := by
    have total := sent.total
    simp only [onZero, onOne] at total
    split_ifs at total
    · linear_combination total - factor ^ 2 * circle - factor ^ 2 * signedSquare
    · linear_combination total - factor ^ 2 * circle - factor ^ 2 * signedSquare
  refine ⟨first, second, onZero, onOne, after, ?_, sent, ?_, ?_⟩
  · refine Run.execute_all_append_iff.2 ⟨ready, allocates, Run.execute_all_append_iff.2
      ⟨mixed, runs, Run.execute_all_cons_iff.2 ⟨middle, measures, ?_⟩⟩⟩
    exact Run.execute_all_cons_iff.2 ⟨after, again, rfl⟩
  · simp only [onZero]
    split_ifs
    · linear_combination signed ^ 2 * one + signedSquare
    · linear_combination cosine ^ 2 * one
  · simp only [onOne]
    split_ifs
    · linear_combination cosine ^ 2 * one
    · linear_combination signed ^ 2 * one + signedSquare

end Prepare

section Received

variable {state : RunState R} {first second : Bool} {onZero onOne : R}
  (sent : Sent state.simulator first second onZero onOne)

include sent

/-- A correction acts on the two amplitudes of qubit 2. -/
theorem Sent.corrected (label : String) {gate : Gate R} (noMatrix : gate.mixing? = none)
    {a b c d : R} (matrix : gate.matrix = .real a b c d) :
    ∃ after, Run.executeAll registry label [.gate gate ⟨2⟩ []] state = .ok () after ∧
      Sent after.simulator first second (a * onZero + b * onOne) (c * onZero + d * onOne) := by
  let call : GateCall R := ⟨gate, ⟨2⟩, []⟩
  have within : call.Within qubits := by simp [call, GateCall.Within, qubits]
  obtain ⟨after, done, physical, laidOut, values, changed⟩ :=
    Run.gate_runs registry label sent.physical sent.laid_out within
      (GateCall.neglects_only_zeros_of_not_mixing noMatrix _)
  refine ⟨after, Run.execute_all_cons_iff.2 ⟨after, done, rfl⟩, physical, laidOut, ?_, ?_, ?_, ?_⟩
  · rw [values, sent.value]
    refine act_on_three matrix place_two (by decide) fun bits => ?_
    rw [actOnBits, received, received, received, received]
    by_cases shows : bits 0 = first ∧ bits 1 = second
    · cases bits 2 <;> simp [call, shows]
      exact add_comm _ _
    · simp [call, shows]
  · rw [changed]
    exact sent.first_register
  · rw [changed]
    exact sent.second_register
  · rw [changed]
    exact sent.no_dump

theorem Sent.completed :
    ∃ after,
      Run.executeAll registry "done"
        ([.dump [⟨2⟩], .measure [⟨2⟩] ⟨0⟩] ++ qubits.map (Instruction.free · false)) state =
          .ok () after ∧
      Delivered after.simulator first second (onZero ^ 2) (onOne ^ 2) := by
  have found : state.simulator.allocation[(⟨2⟩ : QubitId)]? = some 2 :=
    sent.laid_out.slot_eq (show (⟨2⟩ : QubitId) ∈ qubits by decide)
  obtain ⟨record, dumped, takes, physicalDumped, same, single, probabilities, changed⟩ :=
    sent.physical.dump found
  have recorded : Run.execute registry "done" (.dump [⟨2⟩]) state =
      .ok () { state with simulator := dumped } := by
    refine Run.perform_ok ?_
    change EStateM.map _ _ _ = _
    rw [EStateM.map, takes]
  have laidOutDumped : dumped.LaidOut qubits := by
    apply sent.laid_out.congr <;> rw [changed]
  obtain ⟨bit, measured, _, measures, physical, laidOut, _, registers, dumps⟩ :=
    @execute_measured_one R _ registry "done" { state with simulator := dumped } _ physicalDumped
      laidOutDumped ((congrArg SparseState.value same).trans sent.value) ⟨2⟩ (by decide) ⟨0⟩
  obtain ⟨after, frees, _, _, _, dumpsAfter, registersAfter⟩ :=
    Run.free_all registry "done" physical.well_formed (show qubits.Nodup by decide)
      fun qubit listed => ⟨_, laidOut.slot_eq listed⟩
  have kept (register : RegisterId) (other : register ≠ ⟨0⟩) :
      after.simulator.register register = state.simulator.register register := by
    rw [Simulator.register, registersAfter, registers, get_insert, if_neg other, changed]
    rfl
  refine ⟨after, Run.execute_all_cons_iff.2 ⟨_, recorded,
    Run.execute_all_cons_iff.2 ⟨measured, measures, frees⟩⟩, ?_, ?_, record, ?_, single, ?_, ?_⟩
  · rw [kept _ (by decide), sent.first_register]
  · rw [kept _ (by decide), sent.second_register]
  · rw [dumpsAfter, dumps, changed]
    change state.simulator.dumps.push record = _
    rw [sent.no_dump]
    rfl
  · exact (probabilities false).trans (sent.branch false)
  · exact (probabilities true).trans (sent.branch true)

/-- From the block that looks at the first bit on, a run makes the correction of the sign if that
bit is 1. -/
theorem Sent.checked :
    ∃ after, Run.Passes (graph angle) registry 2 state
        ("check_z" :: ((if first then ["fix_z"] else []) ++ ["done"])) after ∧
      Delivered after.simulator first second (onZero ^ 2) (onOne ^ 2) := by
  cases first with
  | false =>
      obtain ⟨after, done, delivered⟩ := sent.completed registry
      have ends : Run.Passes (graph angle) registry 4 state ["done"] after := .last rfl done
      exact ⟨after, .onward rfl rfl (show 2 ≠ 4 by decide)
        (Run.successor_branch rfl sent.first_register) ends, delivered⟩
  | true =>
      obtain ⟨fixed, fixes, sentFixed⟩ :=
        sent.corrected registry "fix_z" (show (Gate.z : Gate R).mixing? = none from rfl) matrix_turn
      obtain ⟨after, done, delivered⟩ := sentFixed.completed registry
      have zero : (1 * onZero + 0 * onOne) ^ 2 = onZero ^ 2 := by ring
      have one : (0 * onZero + -1 * onOne) ^ 2 = onOne ^ 2 := by ring
      rw [zero, one] at delivered
      have ends : Run.Passes (graph angle) registry 3 state ["fix_z", "done"] after :=
        .onward rfl fixes (show 3 ≠ 4 by decide) rfl (.last rfl done)
      exact ⟨after, .onward rfl rfl (show 2 ≠ 4 by decide)
        (Run.successor_branch rfl sent.first_register) ends, delivered⟩

end Received

def route (first second : Bool) : List String :=
  "prepare" :: ((if second then ["fix_x"] else []) ++
    "check_z" :: ((if first then ["fix_z"] else []) ++ ["done"]))

/-- Whatever is drawn, the program comes to its end by way of the corrections that the two measured
bits select, and its one dump, of qubit 2, shows the state that qubit 0 was given: 0 is as probable
as the square of the cosine of half the angle says, and 1 as that of the sine. -/
theorem prepared_state_received {settings : Settings} (inForce : settings.InForce)
    (room : 3 ≤ settings.maxQubits) (seed : UInt64) (draws : Draws)
    (losesNothing : Run.LosesNothing (graph angle) registry (graph angle).entry
      (start settings seed draws)) :
    (Demo.teleport angle).resolve = .ok (graph angle) ∧
    ∃ first second after,
      Run.Passes (graph angle) registry (graph angle).entry (start settings seed draws)
        (route first second) after ∧
      (∀ budget, 5 ≤ budget → Run.loop (graph angle) registry budget (graph angle).entry
        (start settings seed draws) = some ⟨.ok (), after⟩) ∧
      Delivered after.simulator first second (Scalar.cos (angle / 2) ^ 2)
        (Scalar.sin (angle / 2) ^ 2) := by
  refine ⟨resolve_teleport angle, ?_⟩
  obtain ⟨first, second, onZero, onOne, state, done, sent, zero, one⟩ :=
    prepared angle registry inForce room seed draws (losesNothing.lossless rfl)
  have delivers : ∃ after, Run.Passes (graph angle) registry (graph angle).entry
      (start settings seed draws) (route first second) after ∧
      Delivered after.simulator first second (Scalar.cos (angle / 2) ^ 2)
        (Scalar.sin (angle / 2) ^ 2) := by
    rw [← ExactAngles.half_eq]
    cases second with
    | false =>
        obtain ⟨after, passes, delivered⟩ := sent.checked angle registry
        rw [zero, one] at delivered
        exact ⟨after, .onward rfl done (show 0 ≠ 4 by decide)
          (Run.successor_branch rfl sent.second_register) passes, delivered⟩
    | true =>
        obtain ⟨fixed, fixes, sentFixed⟩ :=
          sent.corrected registry "fix_x" (show (Gate.x : Gate R).mixing? = none from rfl)
            matrix_flip
        obtain ⟨after, passes, delivered⟩ := sentFixed.checked angle registry
        rw [zero_mul, one_mul, zero_add, zero_mul, one_mul, add_zero, zero, one] at delivered
        have onward : Run.Passes (graph angle) registry 1 state
            ("fix_x" :: "check_z" :: ((if first then ["fix_z"] else []) ++ ["done"])) after :=
          .onward rfl fixes (show 1 ≠ 4 by decide) rfl passes
        exact ⟨after, .onward rfl done (show 0 ≠ 4 by decide)
          (Run.successor_branch rfl sent.second_register) onward, delivered⟩
  obtain ⟨after, passes, delivered⟩ := delivers
  refine ⟨first, second, after, passes, fun budget enough => ?_, delivered⟩
  refine Run.loop_of_passes passes (le_trans ?_ enough)
  cases first <;> cases second <;> decide

end Blocks

theorem third_received :
    ∃ settings : Settings, settings.InForce ∧ 3 ≤ settings.maxQubits ∧
      Run.LosesNothing (graph (Real.pi / 3)) (.ofSearchPath settings.pluginPath) 0
        (start settings 7 (.constant 0)) ∧
      ∃ first second after,
        Run.Passes (graph (Real.pi / 3)) (.ofSearchPath settings.pluginPath) 0
          (start settings 7 (.constant 0)) (route first second) after ∧
        Delivered after.simulator first second (3 / 4) (1 / 4) := by
  let settings : Settings := ⟨"plugins", 7, "dumps", 3⟩
  have inForce : settings.InForce := .limited (.started (fun _ => none) "plugins" "dumps" 7) 3
  have sixth : Real.pi / 3 / 2 = Real.pi / 6 := by ring
  have large {part : ℝ} (bound : 1 / 4 ≤ part * part) :
      Noticed (Scalar.invSqrtTwo * (Scalar.invSqrtTwo * part)) := by
    refine Or.inr ((Amplitude.is_kept_iff _).2 ?_)
    rw [← mul_assoc, ExactAngles.inv_sqrt_two_mul_self, Amplitude.norm_sq_eq]
    change (1 / 10000000000 : ℝ) * (1 / 10000000000) ≤ _
    linarith
  have cosine : Scalar.cos (Real.pi / 3 / 2 : ℝ) ^ 2 = 3 / 4 := by
    change Real.cos _ ^ 2 = _
    rw [sixth, Real.cos_pi_div_six, div_pow, Real.sq_sqrt (by norm_num)]
    norm_num
  have sine : Scalar.sin (Real.pi / 3 / 2 : ℝ) ^ 2 = 1 / 4 := by
    change Real.sin _ ^ 2 = _
    rw [sixth, Real.sin_pi_div_six]
    norm_num
  have losesNothing : Run.LosesNothing (graph (Real.pi / 3)) (.ofSearchPath settings.pluginPath) 0
      (start settings 7 (.constant 0)) := by
    apply loses_nothing _ _ inForce (Nat.le_refl 3)
    · apply large
      rw [ExactAngles.half_eq, ← sq, cosine]
      norm_num
    · apply large
      rw [ExactAngles.half_eq, ← sq, sine]
  obtain ⟨_, first, second, after, passes, _, delivered⟩ :=
    prepared_state_received (Real.pi / 3) (.ofSearchPath settings.pluginPath) inForce
      (Nat.le_refl 3) 7 (.constant 0) losesNothing
  rw [cosine, sine] at delivered
  exact ⟨settings, inForce, Nat.le_refl 3, losesNothing, first, second, after, passes, delivered⟩

end Teleportation

end SparseQuantum
