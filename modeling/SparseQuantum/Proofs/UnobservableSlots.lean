import Mathlib
import SparseQuantum.Proofs.SlotBijections

/-!
# Slots are not observable

Which slots qubits occupy depends on the allocations and frees before. Between simulators that
differ in this only, every operation tells the same and leaves simulators that differ in this only.
By induction on the run, a caller who chooses each operation by all that was seen before never sees
a difference: as long as nothing differs in what was seen, both sides perform the same operation.
-/

namespace SparseQuantum

set_option autoImplicit false

variable {R : Type}

namespace Operation

open Simulator

variable [Scalar R]

def reply (simulator : Simulator R) : Operation R → Answer
  | .alloc qubit dirty => answerOf (fun _ => .done) (Simulator.alloc qubit dirty simulator)
  | .free qubit dirty => answerOf (fun _ => .done) (Simulator.free qubit dirty simulator)
  | .gate kind target controls =>
      answerOf (fun _ => .done) (Simulator.applyGate kind target controls simulator)
  | .measure qubit => answerOf .bit (Simulator.measure qubit simulator)
  | .plugin code targets arguments inverse controls => answerOf (fun _ => .done)
      (Simulator.applyPlugin code targets arguments inverse controls simulator)
  | .dump qubits => answerOf .index (Simulator.takeDump qubits simulator)
  | .setRegister register value =>
      answerOf (fun _ => .done) (Action.setRegister register value simulator)

/-- No plugin but the addition of a constant is called. -/
def OnlyAdds : Operation R → Prop
  | .plugin code _ _ _ _ => code = AddConstant.plugin
  | _ => True

theorem OnlyAdds.keeps_others {before : Simulator R} (wellFormed : before.WellFormed)
    {operation : Operation R} (onlyAdds : operation.OnlyAdds) :
    Simulator.KeepsOthers before operation := by
  cases operation with
  | plugin code targets arguments inverse controls =>
      rw [show code = AddConstant.plugin from onlyAdds]
      exact keeps_others_of_plugin wellFormed AddConstant.keeps_others targets arguments inverse
        controls
  | _ => trivial

end Operation

namespace Simulator

open Arena

section Owned

variable [Scalar R]

theorem owned_nested {before : Simulator R} (wellFormed : before.WellFormed)
    (operation : Operation R) :
    before.ownedSlots ⊆ (leaves (operation.perform before)).ownedSlots ∨
      (leaves (operation.perform before)).ownedSlots ⊆ before.ownedSlots := by
  have regroups := perform_regroups wellFormed operation
  simp only [ownedSlots]
  generalize (leaves (operation.perform before)).arena = after at regroups
  cases regroups with
  | kept => exact Or.inl fun _ owned => owned
  | grown _ inserts =>
      exact Or.inl fun slot owned => (inserts_owns_iff inserts slot).2 (Or.inr owned)
  | cleaned _ _ _ detaches =>
      exact Or.inr fun slot owned => ((detaches_owns_iff detaches slot).1 owned).2
  | turned gathers => exact Or.inl fun slot owned => (merges_owns_iff gathers.merges slot).2 owned
  | collapsed => exact Or.inl fun _ owned => owned
  | gathered gathers => exact Or.inl fun slot owned => (merges_owns_iff gathers.merges slot).2 owned
  | rejoined _ _ _ gathers =>
      exact Or.inl fun slot owned => (merges_owns_iff gathers.merges slot).2 owned

end Owned

section Exact

variable {K : Type} [ExactScalar K] [Std.TransCmp (Scalar.totalOrder : K → K → Ordering)]
  [Std.LawfulEqCmp (Scalar.totalOrder : K → K → Ordering)]

theorem operation_in_step {sigma : Equiv.Perm Nat} {left right : Simulator K}
    (matching : Matches sigma left right) (leftFormed : left.WellFormed)
    (rightFormed : right.WellFormed) (isLocal : left.arena.Local) {operation : Operation K}
    (onlyAdds : operation.OnlyAdds) :
    operation.reply right = operation.reply left ∧ ∃ tau : Equiv.Perm Nat,
      Matches tau (leaves (operation.perform left)) (leaves (operation.perform right)) ∧
        ∀ slot ∈ left.ownedSlots, tau slot = sigma slot := by
  cases operation with
  | alloc qubit dirty =>
      obtain ⟨tau, told, agrees⟩ :=
        alloc_in_step matching leftFormed rightFormed isLocal qubit dirty
      exact ⟨told.answer, tau, told.matching, agrees⟩
  | free qubit dirty =>
      have told := free_in_step matching leftFormed rightFormed qubit dirty
      exact ⟨told.answer, sigma, told.matching, fun _ _ => rfl⟩
  | gate kind target controls =>
      have told := gate_in_step matching leftFormed rightFormed isLocal kind target controls
      exact ⟨told.answer, sigma, told.matching, fun _ _ => rfl⟩
  | measure qubit =>
      have told := measure_in_step matching leftFormed rightFormed qubit
      exact ⟨told.answer, sigma, told.discarded, fun _ _ => rfl⟩
  | plugin code targets arguments inverse controls =>
      rw [show code = AddConstant.plugin from onlyAdds]
      have told := add_in_step matching leftFormed rightFormed isLocal targets arguments inverse
        controls
      exact ⟨told.answer, sigma, told.discarded, fun _ _ => rfl⟩
  | dump qubits =>
      have told := dump_in_step matching leftFormed rightFormed isLocal qubits
      exact ⟨told.answer, sigma, told.discarded, fun _ _ => rfl⟩
  | setRegister register value =>
      exact ⟨rfl, sigma, { matching with
        registers := congrArg (·.insert register value) matching.registers }, fun _ _ => rfl⟩

theorem Renamed.step {pi : Nat → Nat} {left right : Simulator K} (renamed : Renamed pi left right)
    (leftReached : Reachable KeepsOthers left) (rightReached : Reachable KeepsOthers right)
    {operation : Operation K} (onlyAdds : operation.OnlyAdds) :
    operation.reply right = operation.reply left ∧ ∃ tau : Nat → Nat,
      Renamed tau (leaves (operation.perform left)) (leaves (operation.perform right)) ∧
        ∀ slot ∈ left.ownedSlots, tau slot = pi slot := by
  have leftFormed := reachable_well_formed leftReached
  have rightFormed := reachable_well_formed rightReached
  have isLocal := reachable_local leftReached
  obtain ⟨sigma, matching, extending⟩ := renamed.matches leftFormed rightFormed isLocal
  obtain ⟨told, tau, matchingAfter, agrees⟩ :=
    operation_in_step matching leftFormed rightFormed isLocal onlyAdds
  have isLocalAfter := reachable_local (leftReached.step (onlyAdds.keeps_others leftFormed))
  refine ⟨told, tau, matchingAfter.renamed (perform_well_formed leftFormed operation)
    (perform_well_formed rightFormed operation) isLocalAfter, fun slot owned => ?_⟩
  rw [agrees slot owned, extending slot owned]

end Exact

/-! ### Runs -/

/-- What a caller sees of a simulator: the replies so far, the last one first, and what can be
read. -/
structure Seen (R : Type) where
  replies : List Answer
  registers : Std.ExtTreeMap RegisterId Int64 compare
  bits : Std.ExtTreeMap QubitId Bool compare
  dumps : Array (Dump R)

def seen (simulator : Simulator R) (replies : List Answer) : Seen R :=
  ⟨replies, simulator.registers, simulator.bits, simulator.dumps⟩

variable [Scalar R]

theorem Renamed.seen {pi : Nat → Nat} {left right : Simulator R} (renamed : Renamed pi left right)
    (replies : List Answer) : right.seen replies = left.seen replies := by
  rw [Simulator.seen, Simulator.seen, renamed.registers, renamed.bits, renamed.dumps]

/-- The replies and the simulator after some operations, each chosen by all that was seen before. -/
def drive (choose : Seen R → Operation R) (simulator : Simulator R) :
    Nat → List Answer × Simulator R
  | 0 => ([], simulator)
  | steps + 1 =>
      let (replies, before) := drive choose simulator steps
      let operation := choose (before.seen replies)
      (operation.reply before :: replies, leaves (operation.perform before))

def observed (choose : Seen R → Operation R) (simulator : Simulator R) (steps : Nat) : Seen R :=
  (drive choose simulator steps).2.seen (drive choose simulator steps).1

theorem drive_reachable {simulator : Simulator R} (reached : Reachable KeepsOthers simulator)
    {choose : Seen R → Operation R} (onlyAdds : ∀ seen, (choose seen).OnlyAdds) (steps : Nat) :
    Reachable KeepsOthers (drive choose simulator steps).2 := by
  induction steps with
  | zero => exact reached
  | succ steps induction =>
      exact induction.step ((onlyAdds _).keeps_others (reachable_well_formed induction))

section Exact

variable {K : Type} [ExactScalar K] [Std.TransCmp (Scalar.totalOrder : K → K → Ordering)]
  [Std.LawfulEqCmp (Scalar.totalOrder : K → K → Ordering)]

/-- As all that was seen is the same on both sides, so is each choice. -/
theorem Renamed.drive {pi : Nat → Nat} {left right : Simulator K} (renamed : Renamed pi left right)
    (leftReached : Reachable KeepsOthers left) (rightReached : Reachable KeepsOthers right)
    {choose : Seen K → Operation K} (onlyAdds : ∀ seen, (choose seen).OnlyAdds) (steps : Nat) :
    (drive choose right steps).1 = (drive choose left steps).1 ∧
      ∃ tau, Renamed tau (drive choose left steps).2 (drive choose right steps).2 := by
  induction steps with
  | zero => exact ⟨rfl, pi, renamed⟩
  | succ steps induction =>
      obtain ⟨replies, rho, renamedBefore⟩ := induction
      have same : observed choose right steps = observed choose left steps := by
        rw [observed, observed, replies, renamedBefore.seen]
      obtain ⟨told, tau, renamedAfter, _⟩ := renamedBefore.step
        (drive_reachable leftReached onlyAdds steps) (drive_reachable rightReached onlyAdds steps)
        (onlyAdds (observed choose left steps))
      change ((choose (observed choose right steps)).reply _ :: _) =
          ((choose (observed choose left steps)).reply _ :: _) ∧
        ∃ tau, Renamed tau (leaves ((choose (observed choose left steps)).perform _))
          (leaves ((choose (observed choose right steps)).perform _))
      rw [same, told, replies]
      exact ⟨rfl, tau, renamedAfter⟩

/-- Between simulators that differ only in which slots are used, no operation tells a difference,
and it leaves them so: a slot taken into use may have to be renamed, all others are renamed as they
were. Hence no sequence of operations does, though each may be chosen by all that was seen before.

The limit on slots is the one a simulator was made with: how many slots were ever handed out would
matter once the limit is set below that. -/
theorem slots_unobservable {pi : Nat → Nat} {left right : Simulator K}
    (leftReached : Reachable KeepsOthers left) (rightReached : Reachable KeepsOthers right)
    (renamed : Renamed pi left right) :
    (∀ operation : Operation K, operation.OnlyAdds →
      operation.reply right = operation.reply left ∧
      ∃ tau : Nat → Nat,
        Renamed tau (leaves (operation.perform left)) (leaves (operation.perform right)) ∧
        (∀ slot ∈ left.ownedSlots, tau slot = pi slot) ∧
        (left.ownedSlots ⊆ (leaves (operation.perform left)).ownedSlots ∨
          (leaves (operation.perform left)).ownedSlots ⊆ left.ownedSlots)) ∧
    ∀ choose : Seen K → Operation K, (∀ seen, (choose seen).OnlyAdds) → ∀ steps : Nat,
      observed choose right steps = observed choose left steps ∧
      ∃ tau, Renamed tau (drive choose left steps).2 (drive choose right steps).2 := by
  constructor
  · intro operation onlyAdds
    obtain ⟨told, tau, renamedAfter, agrees⟩ :=
      renamed.step leftReached rightReached onlyAdds
    exact ⟨told, tau, renamedAfter, agrees,
      owned_nested (reachable_well_formed leftReached) operation⟩
  · intro choose onlyAdds steps
    obtain ⟨replies, tau, renamedAfter⟩ :=
      renamed.drive leftReached rightReached onlyAdds steps
    refine ⟨?_, tau, renamedAfter⟩
    rw [observed, observed, replies, renamedAfter.seen]

end Exact

/-! ### Two qubits allocated in either order -/

instance : Std.TransCmp (Scalar.totalOrder : Real → Real → Ordering) :=
  inferInstanceAs (Std.TransCmp (compare : Real → Real → Ordering))

instance : Std.LawfulEqCmp (Scalar.totalOrder : Real → Real → Ordering) :=
  inferInstanceAs (Std.LawfulEqCmp (compare : Real → Real → Ordering))

noncomputable def pair (first second : QubitId) : Simulator Real :=
  { ofSeed width 7 with
    arena := ⟨#[.singleton 0, .singleton 1], [], (Std.ExtTreeMap.empty.insert 0 0).insert 1 1⟩
    allocation := (Std.ExtTreeMap.empty.insert first 0).insert second 1
    nextSlot := 2 }

theorem pair_reachable {first second : QubitId} (different : first ≠ second) :
    Reachable KeepsOthers (pair first second) := by
  let one : Simulator Real := leaves ((Operation.alloc first false).perform (ofSeed width 7))
  have unknown : ¬one.allocation.contains second = true := by
    change ¬(Std.ExtTreeMap.empty.insert first 0).contains second = true
    rw [Std.ExtTreeMap.contains_eq_isSome_getElem?, get_insert, if_neg different.symm]
    exact Bool.false_ne_true
  have run : leaves ((Operation.alloc second false).perform one) = pair first second := by
    rw [Operation.perform, alloc, Action.bind_get, if_neg unknown]
    rfl
  have reached : Reachable KeepsOthers one :=
    .step (.seeded (.started (fun _ => none) "plugins" "dumps" 7) 7) trivial
  rw [← run]
  exact .step reached trivial

theorem pair_matches {first second : QubitId} (different : first ≠ second) :
    Matches (Equiv.swap 0 1) (pair first second) (pair second first) where
  rearranges := BasisState.rearranges_swap (by decide) (by decide)
  arena := by
    have rearranges : BasisState.Rearranges (Equiv.swap 0 1) :=
      BasisState.rearranges_swap (by decide) (by decide)
    rw [renames_iff_perm (reachable_well_formed (pair_reachable different)).arena
      (reachable_well_formed (pair_reachable different.symm)).arena rearranges]
    change ([.singleton 0, .singleton 1].map (Partition.rename · (Equiv.swap 0 1))).Perm
      [(.singleton 0 : Partition Real), .singleton 1]
    rw [List.map_cons, List.map_cons, List.map_nil, Partition.rename_singleton rearranges,
      Partition.rename_singleton rearranges, Equiv.swap_apply_left, Equiv.swap_apply_right]
    exact List.Perm.swap _ _ _
  allocation := by
    intro qubit
    simp only [pair, get_insert]
    split_ifs with isFirst isSecond
    · exact absurd (isFirst.symm.trans isSecond) different
    · simp
    · simp
    · rfl
  parked := rfl
  limit := rfl
  registers := rfl
  bits := rfl
  dumps := rfl
  draws := rfl

noncomputable def flippedPair (first second : QubitId) : Simulator Real :=
  leaves ((Operation.gate .x ⟨0⟩ []).perform (pair first second))

/-- The flipped qubit is in the first slot or in the second, which no caller will ever notice. -/
theorem allocation_order_unobservable :
    (flippedPair ⟨0⟩ ⟨1⟩).arena.known? 0 = some true ∧
    (flippedPair ⟨1⟩ ⟨0⟩).arena.known? 0 = some false ∧
    Renamed (Equiv.swap 0 1) (flippedPair ⟨0⟩ ⟨1⟩) (flippedPair ⟨1⟩ ⟨0⟩) ∧
    ∀ choose : Seen Real → Operation Real, (∀ seen, (choose seen).OnlyAdds) → ∀ steps : Nat,
      observed choose (flippedPair ⟨1⟩ ⟨0⟩) steps =
        observed choose (flippedPair ⟨0⟩ ⟨1⟩) steps := by
  have different : (⟨0⟩ : QubitId) ≠ ⟨1⟩ := by decide
  have left := pair_reachable different
  have right := pair_reachable different.symm
  have told := gate_in_step (pair_matches different) (reachable_well_formed left)
    (reachable_well_formed right) (reachable_local left) .x ⟨0⟩ []
  have leftReached : Reachable KeepsOthers (flippedPair ⟨0⟩ ⟨1⟩) := .step left trivial
  have rightReached : Reachable KeepsOthers (flippedPair ⟨1⟩ ⟨0⟩) := .step right trivial
  have renamed : Renamed (Equiv.swap 0 1) (flippedPair ⟨0⟩ ⟨1⟩) (flippedPair ⟨1⟩ ⟨0⟩) :=
    told.matching.renamed (reachable_well_formed leftReached) (reachable_well_formed rightReached)
      (reachable_local leftReached)
  exact ⟨by decide +kernel, by decide +kernel, renamed, fun choose onlyAdds steps =>
    ((slots_unobservable leftReached rightReached renamed).2 choose onlyAdds steps).1⟩

end Simulator

end SparseQuantum
