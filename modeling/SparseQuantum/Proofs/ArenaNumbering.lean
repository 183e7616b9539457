import Mathlib
import SparseQuantum.Proofs.CallEffects
import SparseQuantum.Proofs.PartitionIndex

/-!
# The places of partitions are not observable

Two simulators are alike when they are the same but for the places of their partitions: every slot
is owned by the same partition, and everything else is equal. Alike simulators read the same, and
every operation answers the same on both and leaves them alike, so no later operation, and no change
of the limit in between, ever tells them apart.
-/

namespace SparseQuantum

set_option autoImplicit false

open Arena

variable {R : Type}

namespace Simulator

/-- The same but for the places at which partitions stand. -/
structure Alike (left right : Simulator R) : Prop where
  owned : right.arena.partitionOf? = left.arena.partitionOf?
  allocation : right.allocation = left.allocation
  free : right.freeSlots = left.freeSlots
  parked : right.parkedSlots = left.parkedSlots
  next : right.nextSlot = left.nextSlot
  limit : right.maxQubits = left.maxQubits
  registers : right.registers = left.registers
  bits : right.bits = left.bits
  dumps : right.dumps = left.dumps
  draws : right.draws = left.draws
  seed : right.seed = left.seed

/-- Two calls told the same and left simulators that are alike. -/
structure SameEnd {α : Type} (tell : α → Answer)
    (left right : EStateM.Result Stop (Simulator R) α) : Prop where
  answer : answerOf tell right = answerOf tell left
  alike : Alike (leaves left) (leaves right)

theorem Alike.refl (simulator : Simulator R) : Alike simulator simulator :=
  ⟨rfl, rfl, rfl, rfl, rfl, rfl, rfl, rfl, rfl, rfl, rfl⟩

namespace Alike

variable {left right : Simulator R} (alike : Alike left right)

include alike

theorem regrouped {leftAfter rightAfter : Arena R}
    (owned : rightAfter.partitionOf? = leftAfter.partitionOf?) :
    Alike { left with arena := leftAfter } { right with arena := rightAfter } :=
  { alike with owned := owned }

theorem under_limit (limit : Nat) : Alike (left.underLimit limit) (right.underLimit limit) :=
  { alike with limit := rfl }

theorem with_max_qubits (maxQubits : Nat) :
    Alike (left.withMaxQubits maxQubits) (right.withMaxQubits maxQubits) :=
  { alike with limit := rfl }

theorem found {qubit : QubitId} {answer : Option Nat}
    (found : left.allocation[qubit]? = answer) : right.allocation[qubit]? = answer := by
  rw [alike.allocation, found]

theorem partition_eq {slot place other : Nat} {partition partitionRight : Partition R}
    (owner : left.arena.owner? slot = some place)
    (stands : left.arena.partitions[place]? = some partition)
    (ownerRight : right.arena.owner? slot = some other)
    (standsRight : right.arena.partitions[other]? = some partitionRight) :
    partitionRight = partition := by
  have here := partition_of_owner ownerRight standsRight
  rw [alike.owned, partition_of_owner owner stands, Option.some.injEq] at here
  exact here.symm

theorem operands {qubits : List QubitId} {slots : List Nat}
    (found : left.Operands qubits slots) : right.Operands qubits slots := by
  rw [← slots_of_operands, slots_of_congr alike.allocation]
  exact (slots_of_operands left qubits slots).2 found

theorem with_state [Scalar R] (leftFormed : left.WellFormed) (rightFormed : right.WellFormed)
    {place other : Nat} {partition : Partition R}
    (stands : left.arena.partitions[place]? = some partition) (used : place ∉ left.arena.vacant)
    (standsRight : right.arena.partitions[other]? = some partition)
    (usedRight : other ∉ right.arena.vacant) (state : SparseState R) :
    (right.arena.withState other state).partitionOf? =
      (left.arena.withState place state).partitionOf? := by
  rw [partition_of_with_state_put rightFormed.arena standsRight usedRight,
    partition_of_with_state_put leftFormed.arena stands used, alike.owned]

end Alike

variable [Scalar R]

/-! ### One operation -/

section Formed

variable {left right : Simulator R} (alike : Alike left right) (leftFormed : left.WellFormed)
  (rightFormed : right.WellFormed)

include alike leftFormed rightFormed

theorem measure_same_end (qubit : QubitId) :
    SameEnd .bit (measure qubit left) (measure qubit right) := by
  cases found : left.allocation[qubit]? with
  | none =>
      rw [measure_unknown found, measure_unknown (alike.found found)]
      exact ⟨rfl, alike⟩
  | some slot =>
      obtain ⟨place, partition, bit, draws, owner, stands, sampled, answer⟩ :=
        measure_found leftFormed.sound found
      obtain ⟨other, partitionRight, bitRight, drawsRight, ownerRight, standsRight, sampledRight,
        answerRight⟩ := measure_found rightFormed.sound (alike.found found)
      have same := alike.partition_eq owner stands ownerRight standsRight
      rw [same] at standsRight
      rw [same, alike.draws, sampled, Prod.mk.injEq] at sampledRight
      rw [answer, answerRight, same, ← sampledRight.1, ← sampledRight.2]
      exact ⟨rfl, { alike with
        owned := alike.with_state leftFormed rightFormed stands
          (leftFormed.arena.used_of_owner owner) standsRight
          (rightFormed.arena.used_of_owner ownerRight) _
        bits := congrArg (·.insert qubit bit) alike.bits
        draws := rfl }⟩

theorem free_same_end (qubit : QubitId) (dirty : Bool) :
    SameEnd (fun _ => .done) (free qubit dirty left) (free qubit dirty right) := by
  cases found : left.allocation[qubit]? with
  | none =>
      rw [free_unknown found, free_unknown (alike.found found)]
      exact ⟨rfl, alike⟩
  | some slot =>
      have erased := congrArg (·.erase qubit) alike.allocation
      cases dirty with
      | true =>
          rw [free_parked found, free_parked (alike.found found)]
          exact ⟨rfl, { alike with
            allocation := erased
            parked := congrArg (slot :: ·) alike.parked }⟩
      | false =>
          obtain ⟨place, partition, bit, draws, least, owner, stands, sampled, detaches, answer⟩ :=
            free_cleaned leftFormed.sound found
          obtain ⟨other, partitionRight, bitRight, drawsRight, leastRight, ownerRight, standsRight,
            sampledRight, detachesRight, answerRight⟩ :=
            free_cleaned rightFormed.sound (alike.found found)
          have same := alike.partition_eq owner stands ownerRight standsRight
          have used := leftFormed.arena.used_of_owner owner
          have usedRight := rightFormed.arena.used_of_owner ownerRight
          rw [same] at standsRight
          rw [same, alike.draws, sampled, Prod.mk.injEq] at sampledRight
          rw [same, ← sampledRight.1] at detachesRight
          rw [answer, answerRight, ← sampledRight.2]
          refine ⟨rfl, { alike with
            owned := ?_
            allocation := erased
            draws := rfl
            free := congrArg (slot :: ·) alike.free }⟩
          funext candidate
          change leastRight.partitionOf? candidate = least.partitionOf? candidate
          rw [partition_of_detaches (with_state_well_formed rightFormed.arena usedRight _)
              detachesRight,
            partition_of_detaches (with_state_well_formed leftFormed.arena used _) detaches,
            alike.with_state leftFormed rightFormed stands used standsRight usedRight]

theorem dump_same_end (qubits : List QubitId) :
    SameEnd .index (takeDump qubits left) (takeDump qubits right) := by
  have outcome := dump_outcome leftFormed qubits
  generalize takeDump qubits left = result at outcome ⊢
  cases outcome with
  | refused refused =>
      rw [← slots_of_congr alike.allocation] at refused
      rw [takeDump, Action.bind_of_error (operands_of_refused refused)]
      exact ⟨rfl, alike⟩
  | empty noQubits =>
      have answer : takeDump qubits right = .ok right.dumps.size { right with
          dumps := right.dumps.push (SparseState.ground.dump 0) } := by
        rw [noQubits]
        rfl
      rw [answer, alike.dumps]
      exact ⟨rfl, { alike with dumps := rfl }⟩
  | recorded found gathers =>
      have foundRight := alike.operands found
      obtain ⟨other, merged, partition, gathersRight⟩ := gather_allocated rightFormed _ _
        fun slot member => foundRight.allocated member
      obtain ⟨target, owner, same, owners⟩ := gathers_reads leftFormed.arena gathers
      obtain ⟨targetRight, ownerRight, sameRight, ownersRight⟩ :=
        gathers_reads rightFormed.arena gathersRight
      rw [alike.owned, owner, Option.some.injEq] at ownerRight
      rw [alike.owned, ← ownerRight, ← same] at sameRight
      rw [take_dump_eq rightFormed.sound foundRight gathersRight, alike.dumps, sameRight]
      refine ⟨rfl, { alike with owned := ?_, dumps := rfl }⟩
      rw [sameRight, alike.owned, ← owners] at ownersRight
      exact ownersRight

end Formed

/-! ### Allocating -/

omit [Scalar R] in
theorem Alike.takes {left right : Simulator R} (alike : Alike left right) {slot next : Nat}
    {rest : List Nat} (takes : Takes left slot rest next) : Takes right slot rest next := by
  cases takes with
  | recycled free =>
      rw [← alike.next]
      exact .recycled (alike.free.trans free)
  | issued noneFree room =>
      rw [← alike.next]
      exact .issued (alike.free.trans noneFree) (by rw [alike.next, alike.limit]; exact room)

omit [Scalar R] in
theorem Alike.offers_slot_iff {left right : Simulator R} (alike : Alike left right) (dirty : Bool) :
    right.OffersSlot dirty ↔ left.OffersSlot dirty := by
  rw [OffersSlot, OffersSlot, alike.parked, alike.free, alike.next, alike.limit]

theorem alloc_same_end {left right : Simulator R} (alike : Alike left right)
    (leftSound : left.Sound) (rightSound : right.Sound) (qubit : QubitId) (dirty : Bool) :
    SameEnd (fun _ => .done) (alloc qubit dirty left) (alloc qubit dirty right) := by
  have inserted (slot : Nat) := congrArg (·.insert qubit slot) alike.allocation
  cases found : left.allocation[qubit]? with
  | some slot =>
      rw [alloc_known found, alloc_known (alike.found found)]
      exact ⟨rfl, alike⟩
  | none =>
      have unknown := alike.found found
      by_cases parked : dirty = true ∧ left.parkedSlots ≠ []
      · obtain ⟨isDirty, some⟩ := parked
        obtain ⟨slot, rest, parked⟩ := List.exists_cons_of_ne_nil some
        rw [isDirty, alloc_unparked found parked,
          alloc_unparked unknown (alike.parked.trans parked)]
        exact ⟨rfl, { alike with allocation := inserted slot, parked := rfl }⟩
      · have unparked : dirty = true → left.parkedSlots = [] := fun isDirty => by
          by_contra some
          exact parked ⟨isDirty, some⟩
        by_cases offers : left.OffersSlot dirty
        · obtain ⟨slot, rest, next, takes⟩ := takes_of_offers unparked offers
          obtain ⟨place, grown, inserts, formed, answer⟩ :=
            alloc_taking leftSound found unparked offers takes
          obtain ⟨other, grownRight, insertsRight, formedRight, answerRight⟩ :=
            alloc_taking rightSound unknown
              (fun isDirty => alike.parked.trans (unparked isDirty))
              ((alike.offers_slot_iff dirty).2 offers) (alike.takes takes)
          rw [answer, answerRight]
          refine ⟨rfl, { alike with
            owned := ?_
            allocation := inserted slot
            free := rfl
            next := rfl }⟩
          funext candidate
          change grownRight.partitionOf? candidate = grown.partitionOf? candidate
          rw [partition_of_inserts rightSound.unlimited.arena formedRight insertsRight,
            partition_of_inserts leftSound.unlimited.arena formed inserts,
            (alike.under_limit width).owned]
        · have offersRight := (alike.offers_slot_iff dirty).not.2 offers
          rw [alloc_without_slot found offers, alloc_without_slot unknown offersRight, alike.limit]
          exact ⟨rfl, alike⟩

/-! ### Under any limit -/

omit [Scalar R] in
theorem SameEnd.of_unlimited {α : Type} {tell : α → Answer} {action : Action R α}
    (ignores : Action.IgnoresLimit action) {left right : Simulator R} (alike : Alike left right)
    (unlimited : SameEnd tell (action (left.underLimit width)) (action (right.underLimit width))) :
    SameEnd tell (action left) (action right) := by
  have kept (before : Simulator R) : leaves (action before) =
      (leaves (action before)).underLimit before.maxQubits := by
    rw [← leaves_result_under, ← ignores]
    rfl
  have told (before : Simulator R) :
      answerOf tell (action (before.underLimit width)) = answerOf tell (action before) := by
    rw [ignores]
    cases action before <;> rfl
  have after := unlimited.alike
  rw [ignores, ignores, leaves_result_under, leaves_result_under] at after
  constructor
  · rw [← told left, ← unlimited.answer, told right]
  · rw [kept left, kept right, alike.limit]
    exact after.under_limit left.maxQubits

omit [Scalar R] in
theorem SameEnd.discarded {α : Type} {tell : α → Answer} {action : Action R α}
    {left right : Simulator R} (same : SameEnd tell (action left) (action right)) :
    Alike (leaves ((discard action : Action R Unit) left))
      (leaves ((discard action : Action R Unit) right)) := by
  rw [Operation.leaves_discard, Operation.leaves_discard]
  exact same.alike

/-- A gate or plugin reads owners of slots, which are the same. -/
theorem Alike.call {left right : Simulator R} (alike : Alike left right) (leftSound : left.Sound)
    (rightSound : right.Sound) (call : Call R) :
    call.operation.reply right = call.operation.reply left ∧
      Alike (leaves (call.operation.perform left)) (leaves (call.operation.perform right)) := by
  obtain ⟨answer, arena, after, owned⟩ := call_has_effect leftSound call
  obtain ⟨answerRight, arenaRight, afterRight, ownedRight⟩ := call_has_effect rightSound call
  rw [effectOf, slots_of_congr alike.allocation, alike.owned, ← effectOf] at answerRight ownedRight
  rw [answer, answerRight, after, afterRight]
  exact ⟨rfl, alike.regrouped (ownedRight.trans owned.symm)⟩

/-- Whatever the limit is by now, every operation answers the same and leaves simulators alike. -/
theorem Alike.step {left right : Simulator R} (alike : Alike left right) (leftSound : left.Sound)
    (rightSound : right.Sound) (operation : Operation R) :
    operation.reply right = operation.reply left ∧
      Alike (leaves (operation.perform left)) (leaves (operation.perform right)) := by
  have unlimited := alike.under_limit width
  have leftFormed := leftSound.unlimited
  have rightFormed := rightSound.unlimited
  cases operation with
  | alloc qubit dirty =>
      have same := alloc_same_end alike leftSound rightSound qubit dirty
      exact ⟨same.answer, same.alike⟩
  | free qubit dirty =>
      have same := SameEnd.of_unlimited (free_ignores_limit qubit dirty) alike
        (free_same_end unlimited leftFormed rightFormed qubit dirty)
      exact ⟨same.answer, same.alike⟩
  | measure qubit =>
      have same := SameEnd.of_unlimited (measure_ignores_limit qubit) alike
        (measure_same_end unlimited leftFormed rightFormed qubit)
      exact ⟨same.answer, same.discarded⟩
  | dump qubits =>
      have same := SameEnd.of_unlimited (take_dump_ignores_limit qubits) alike
        (dump_same_end unlimited leftFormed rightFormed qubits)
      exact ⟨same.answer, same.discarded⟩
  | gate kind target controls => exact alike.call leftSound rightSound (.gate kind target controls)
  | plugin code targets arguments inverse controls =>
      exact alike.call leftSound rightSound (.plugin code targets arguments inverse controls)
  | setRegister register value =>
      exact ⟨rfl, { alike with registers := congrArg (·.insert register value) alike.registers }⟩

/-! ### Later runs -/

inductive Event (R : Type) where
  | operation (operation : Operation R)
  | limit (maxQubits : Nat)

def follow (simulator : Simulator R) : List (Event R) → List Answer × Simulator R
  | [] => ([], simulator)
  | .operation operation :: rest =>
      let (replies, after) := follow (leaves (operation.perform simulator)) rest
      (operation.reply simulator :: replies, after)
  | .limit maxQubits :: rest => follow (simulator.withMaxQubits maxQubits) rest

theorem follow_arises {simulator : Simulator R} (arises : simulator.Arises)
    (events : List (Event R)) : (follow simulator events).2.Arises := by
  induction events generalizing simulator with
  | nil => exact arises
  | cons event rest induction =>
      cases event with
      | operation operation => exact induction (arises.performed operation)
      | limit maxQubits => exact induction (arises.limited maxQubits)

/-- The induction is on the events: each leaves simulators alike, so all replies are the same. -/
theorem Alike.follow {left right : Simulator R} (alike : Alike left right) (leftSound : left.Sound)
    (rightSound : right.Sound) (events : List (Event R)) :
    (follow right events).1 = (follow left events).1 ∧
      Alike (follow left events).2 (follow right events).2 := by
  induction events generalizing left right with
  | nil => exact ⟨rfl, alike⟩
  | cons event rest induction =>
      cases event with
      | operation operation =>
          obtain ⟨reply, after⟩ := alike.step leftSound rightSound operation
          obtain ⟨replies, last⟩ := induction after (sound_perform leftSound operation)
            (sound_perform rightSound operation)
          exact ⟨congrArg₂ List.cons reply replies, last⟩
      | limit maxQubits =>
          exact induction (alike.with_max_qubits maxQubits)
            (sound_with_max_qubits leftSound maxQubits)
            (sound_with_max_qubits rightSound maxQubits)

/-! ### Reading -/

theorem Alike.partition_of {left right : Simulator R} (alike : Alike left right)
    (leftSound : left.Sound) (rightSound : right.Sound) (qubit : QubitId) :
    right.partitionOf qubit = left.partitionOf qubit := by
  cases found : left.allocation[qubit]? with
  | none =>
      have unknown {simulator : Simulator R} (nothing : simulator.allocation[qubit]? = none) :
          simulator.partitionOf qubit = .error (.refused (.notAllocated qubit)) := by
        rw [partitionOf, slotOf, nothing]
        rfl
      rw [unknown found, unknown (alike.found found)]
  | some slot =>
      obtain ⟨_, partition, owner, stands, _, shown⟩ := partition_of_allocated leftSound found
      obtain ⟨_, partitionRight, ownerRight, standsRight, _, shownRight⟩ :=
        partition_of_allocated rightSound (alike.found found)
      rw [shown, shownRight, alike.partition_eq owner stands ownerRight standsRight]

end Simulator

namespace Arena

variable [Scalar R]

theorem length_in_use (arena : Arena R) : arena.inUse.length = arena.livePlaces.card := by
  rw [inUse, List.length_filterMap_eq_countP]
  change _ = ((List.range arena.partitions.size).filter (· ∉ arena.vacant)).length
  rw [← List.countP_eq_length_filter]
  apply List.countP_congr
  intro place member
  have found := Array.getElem?_eq_getElem (List.mem_range.1 member)
  split_ifs with vacant
  · simp [vacant]
  · simp [vacant, found]

theorem count_congr {left right : Arena R} (leftFormed : left.WellFormed)
    (rightFormed : right.WellFormed) (same : right.partitionOf? = left.partitionOf?) :
    right.count = left.count := by
  have listed : right.inUse.Perm left.inUse := by
    rw [List.perm_ext_iff_of_nodup (in_use_distinct rightFormed) (in_use_distinct leftFormed)]
    intro partition
    rw [mem_in_use_iff_partition_of rightFormed, mem_in_use_iff_partition_of leftFormed, same]
  rw [rightFormed.count_eq_card, leftFormed.count_eq_card, ← length_in_use, ← length_in_use,
    listed.length_eq]

end Arena

namespace Simulator

variable [Scalar R]

theorem Alike.partition_count {left right : Simulator R} (alike : Alike left right)
    (leftSound : left.Sound) (rightSound : right.Sound) :
    right.partitionCount = left.partitionCount :=
  count_congr leftSound.unlimited.arena rightSound.unlimited.arena alike.owned

end Simulator

end SparseQuantum
