import Mathlib
import SparseQuantum.Proofs.ArenaNumbering

/-!
# Independent calls

Two gates or plugins are independent when no partition holds an operand of both. Each then reads
what the other leaves alone and puts in members that the other does not touch, so they can change
places: both answer as they would alone, and the simulators differ at most in where partitions
stand, which nothing later tells.
-/

namespace SparseQuantum

set_option autoImplicit false

open Simulator Arena

variable {R : Type}

namespace Ownership

def Coherent (owned : Ownership R) : Prop :=
  ∀ slot partition, owned slot = some partition →
    slot ∈ partition.members ∧ ∀ member ∈ partition.members, owned member = some partition

end Ownership

namespace Arena

theorem coherent_of_well_formed [Scalar R] {arena : Arena R} (wellFormed : arena.WellFormed) :
    Ownership.Coherent arena.partitionOf? := by
  intro slot partition owner
  obtain ⟨place, found, member⟩ := (partition_of_eq_some_iff wellFormed).1 owner
  exact ⟨member, fun _ other => partition_of_member wellFormed found other⟩

end Arena

namespace Call

/-- No partition owns slots of both lists. -/
def Apart (owned : Ownership R) (slots others : List Nat) : Prop :=
  ∀ slot ∈ slots, ∀ other ∈ others, ∀ partition,
    owned slot = some partition → owned other ≠ some partition

variable [Scalar R] {owned : Ownership R}

theorem outcome_congr (call : Call R) {other : Ownership R}
    {slots? : Except SimulatorError (List Nat)}
    (same : ∀ slots, slots? = .ok slots → ∀ slot ∈ slots, owned slot = other slot) :
    call.outcome owned slots? = call.outcome other slots? := by
  cases slots? with
  | error error => rfl
  | ok slots =>
      apply effect_congr
      intro slot member
      rw [List.take_append_drop] at member
      exact same slots rfl slot member

theorem mem_outcome {call : Call R} {slots? : Except SimulatorError (List Nat)}
    {partition : Partition R} (puts : (call.outcome owned slots?).2 = some partition)
    {member : Nat} (here : member ∈ partition.members) :
    ∃ slots, slots? = .ok slots ∧
      ∃ slot ∈ slots, ∃ taken, owned slot = some taken ∧ member ∈ taken.members := by
  cases slots? with
  | error error => cases puts
  | ok slots =>
      obtain ⟨slot, listed, source⟩ := mem_effect puts here
      rw [List.take_append_drop] at listed
      exact ⟨slots, rfl, slot, listed, source⟩

section Independent

variable (coherent : owned.Coherent) {slots? others? : Except SimulatorError (List Nat)}
  (apart : ∀ slots others, slots? = .ok slots → others? = .ok others → Apart owned slots others)

include coherent apart

/-- What a call puts in owns none of the other call's operands. -/
theorem outcome_after (first second : Call R) :
    second.outcome (owned.amend (first.outcome owned slots?).2) others? =
      second.outcome owned others? := by
  apply outcome_congr
  intro others found other listed
  cases puts : (first.outcome owned slots?).2 with
  | none => rfl
  | some partition =>
      apply Ownership.put_of_not_mem
      intro member
      obtain ⟨slots, read, slot, mine, taken, owner, here⟩ := mem_outcome puts member
      exact apart slots others read found slot mine other listed taken owner
        ((coherent slot taken owner).2 other here)

/-- What two calls put in has no member in common. -/
theorem amend_comm (first second : Call R) :
    (owned.amend (first.outcome owned slots?).2).amend (second.outcome owned others?).2 =
      (owned.amend (second.outcome owned others?).2).amend (first.outcome owned slots?).2 := by
  cases puts : (first.outcome owned slots?).2 with
  | none => rfl
  | some partition =>
      cases putsOther : (second.outcome owned others?).2 with
      | none => rfl
      | some otherPartition =>
          apply Ownership.put_comm
          intro member here there
          obtain ⟨slots, read, slot, mine, taken, owner, inTaken⟩ := mem_outcome puts here
          obtain ⟨others, found, other, listed, takenOther, ownerOther, inOther⟩ :=
            mem_outcome putsOther there
          have same := (coherent slot taken owner).2 member inTaken
          rw [(coherent other takenOther ownerOther).2 member inOther] at same
          rw [same] at ownerOther
          exact apart slots others read found slot mine other listed taken owner ownerOther

end Independent

end Call

namespace Simulator

def Holds (simulator : Simulator R) (partition : Partition R) (qubit : QubitId) : Prop :=
  ∃ slot ∈ partition.members, simulator.allocation[qubit]? = some slot

instance (simulator : Simulator R) (partition : Partition R) (qubit : QubitId) :
    Decidable (simulator.Holds partition qubit) :=
  inferInstanceAs (Decidable (∃ slot ∈ partition.members, simulator.allocation[qubit]? = some slot))

variable [Scalar R]

/-- No partition holds an operand of both calls. -/
def Independent (simulator : Simulator R) (first second : Call R) : Prop :=
  ∀ partition ∈ simulator.arena.inUse, ¬((∃ one ∈ first.operands, simulator.Holds partition one) ∧
    ∃ other ∈ second.operands, simulator.Holds partition other)

instance (simulator : Simulator R) (first second : Call R) :
    Decidable (simulator.Independent first second) :=
  inferInstanceAs (Decidable (∀ partition ∈ simulator.arena.inUse,
    ¬((∃ one ∈ first.operands, simulator.Holds partition one) ∧
      ∃ other ∈ second.operands, simulator.Holds partition other)))

omit [Scalar R] in
theorem Operands.listed {simulator : Simulator R} {qubits : List QubitId} {slots : List Nat}
    (found : simulator.Operands qubits slots) {slot : Nat} (member : slot ∈ slots) :
    ∃ qubit ∈ qubits, simulator.allocation[qubit]? = some slot := by
  have read : some slot ∈ qubits.map (simulator.allocation[·]?) := by
    rw [found.2]
    exact List.mem_map_of_mem member
  obtain ⟨qubit, listed, same⟩ := List.mem_map.1 read
  exact ⟨qubit, listed, same⟩

theorem Independent.apart {simulator : Simulator R} (sound : simulator.Sound)
    {first second : Call R} (independent : simulator.Independent first second)
    {slots others : List Nat} (found : simulator.slotsOf [] first.operands = .ok slots)
    (foundOther : simulator.slotsOf [] second.operands = .ok others) :
    Call.Apart simulator.arena.partitionOf? slots others := by
  have wellFormed := sound.unlimited.arena
  intro slot member other listed partition owner ownerOther
  obtain ⟨one, operand, allocated⟩ := ((slots_of_operands _ _ _).1 found).listed member
  obtain ⟨qubit, operandOther, allocatedOther⟩ :=
    ((slots_of_operands _ _ _).1 foundOther).listed listed
  have inUse := (mem_in_use_iff_partition_of wellFormed).2 ⟨slot, owner⟩
  have coherent := coherent_of_well_formed wellFormed
  exact independent partition inUse
    ⟨⟨one, operand, slot, (coherent slot partition owner).1, allocated⟩,
      qubit, operandOther, other, (coherent other partition ownerOther).1, allocatedOther⟩

/-- Once another call has been performed that is independent of it, a call has the same effect. -/
theorem effect_after {simulator : Simulator R} (sound : simulator.Sound) {first second : Call R}
    (independent : simulator.Independent first second) :
    (leaves (first.operation.perform simulator)).effectOf second = simulator.effectOf second := by
  obtain ⟨_, between, left, owned⟩ := call_has_effect sound first
  have allocation : (leaves (first.operation.perform simulator)).allocation =
      simulator.allocation := by rw [left]
  rw [effectOf, slots_of_congr allocation, left]
  change second.outcome between.partitionOf? _ = _
  rw [owned]
  exact Call.outcome_after (coherent_of_well_formed sound.unlimited.arena)
    (fun _ _ => independent.apart sound) first second

theorem calls_have_effects {simulator : Simulator R} (sound : simulator.Sound)
    {first second : Call R} (independent : simulator.Independent first second) :
    second.operation.reply (leaves (first.operation.perform simulator)) =
      second.operation.reply simulator ∧
    ∃ arena : Arena R,
      leaves (second.operation.perform (leaves (first.operation.perform simulator))) =
        { simulator with arena } ∧
      arena.partitionOf? = Ownership.amend
        (Ownership.amend simulator.arena.partitionOf? (simulator.effectOf first).2)
        (simulator.effectOf second).2 := by
  obtain ⟨_, between, left, owned⟩ := call_has_effect sound first
  obtain ⟨answer, arena, after, ownedAfter⟩ :=
    call_has_effect (sound_perform sound first.operation) second
  rw [effect_after sound independent] at answer ownedAfter
  refine ⟨answer.trans (call_has_effect sound second).1.symm, arena, ?_, ?_⟩
  · rw [after, left]
  · rw [ownedAfter, left, ← owned]

theorem Independent.symm {simulator : Simulator R} {first second : Call R}
    (independent : simulator.Independent first second) : simulator.Independent second first :=
  fun partition inUse both => independent partition inUse both.symm

/-- Independent calls answer the same in either order and leave simulators that differ at most in
the places of partitions. Every qubit keeps its slot and shows the same partition either way, as
many partitions are counted, registers, bits, dumps and draws are the same, and whatever happens
later is answered the same and leaves it so. -/
theorem independent_calls_commute {simulator : Simulator R} (arises : simulator.Arises)
    (first second : Call R) (independent : simulator.Independent first second) :
    let oneWay := leaves (second.operation.perform (leaves (first.operation.perform simulator)))
    let otherWay := leaves (first.operation.perform (leaves (second.operation.perform simulator)))
    (first.operation.reply (leaves (second.operation.perform simulator)) =
        first.operation.reply simulator ∧
      second.operation.reply (leaves (first.operation.perform simulator)) =
        second.operation.reply simulator) ∧
    Alike oneWay otherWay ∧
    (∀ qubit : QubitId, otherWay.allocation[qubit]? = oneWay.allocation[qubit]? ∧
      otherWay.partitionOf qubit = oneWay.partitionOf qubit) ∧
    otherWay.partitionCount = oneWay.partitionCount ∧
    (otherWay.registers = oneWay.registers ∧ otherWay.bits = oneWay.bits ∧
      otherWay.dumps = oneWay.dumps ∧ otherWay.draws = oneWay.draws) ∧
    ∀ events : List (Event R), (follow otherWay events).1 = (follow oneWay events).1 ∧
      Alike (follow oneWay events).2 (follow otherWay events).2 := by
  intro oneWay otherWay
  have sound := arises_sound arises
  obtain ⟨answerSecond, arena, here, owned⟩ := calls_have_effects sound independent
  obtain ⟨answerFirst, arenaOther, there, ownedOther⟩ := calls_have_effects sound independent.symm
  have commute := Call.amend_comm (coherent_of_well_formed sound.unlimited.arena)
    (fun _ _ => independent.apart sound) first second
  have same : arenaOther.partitionOf? = arena.partitionOf? :=
    ownedOther.trans (commute.symm.trans owned.symm)
  have alike : Alike oneWay otherWay := by
    rw [show oneWay = _ from here, show otherWay = _ from there]
    exact (Alike.refl simulator).regrouped same
  have oneSound : oneWay.Sound := sound_perform (sound_perform sound _) _
  have otherSound : otherWay.Sound := sound_perform (sound_perform sound _) _
  exact ⟨⟨answerFirst, answerSecond⟩, alike,
    fun qubit => ⟨by rw [alike.allocation], alike.partition_of oneSound otherSound qubit⟩,
    alike.partition_count oneSound otherSound,
    ⟨alike.registers, alike.bits, alike.dumps, alike.draws⟩, alike.follow oneSound otherSound⟩

/-- Two pairs of qubits, the first qubit of each in both values. -/
def twoPairs : Simulator Float :=
  (follow (ofSeed width 7) [.operation (.alloc ⟨0⟩ false), .operation (.alloc ⟨1⟩ false),
    .operation (.alloc ⟨2⟩ false), .operation (.alloc ⟨3⟩ false), .operation (.gate .h ⟨0⟩ []),
    .operation (.gate .h ⟨2⟩ [])]).2

/-- A gate joins one pair and an addition the other. The order shows in the vacant places only. -/
theorem pairs_commute :
    let flip : Call Float := .gate .x ⟨1⟩ [⟨0⟩]
    let add : Call Float := .plugin AddConstant.plugin [⟨3⟩] "1" false [⟨2⟩]
    let oneWay := leaves (add.operation.perform (leaves (flip.operation.perform twoPairs)))
    let otherWay := leaves (flip.operation.perform (leaves (add.operation.perform twoPairs)))
    twoPairs.Arises ∧ twoPairs.Independent flip add ∧
    oneWay.arena.vacant = [2, 0] ∧ otherWay.arena.vacant = [0, 2] ∧
    otherWay.partitionCount = oneWay.partitionCount ∧
    ∀ events : List (Event Float), (follow otherWay events).1 = (follow oneWay events).1 := by
  intro flip add oneWay otherWay
  have arises : twoPairs.Arises :=
    follow_arises (.seeded (.started (fun _ => none) "plugins" "dumps" 7) 7) _
  have independent : twoPairs.Independent flip add := by decide +kernel
  obtain ⟨_, _, _, count, _, later⟩ := independent_calls_commute arises flip add independent
  exact ⟨arises, independent, by decide +kernel, by decide +kernel, count,
    fun events => (later events).1⟩

end Simulator

end SparseQuantum
