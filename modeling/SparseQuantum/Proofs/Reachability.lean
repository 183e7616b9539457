import Mathlib
import SparseQuantum.Proofs.Outcomes
import SparseQuantum.Settings

/-!
# Reachable simulators

A simulator is reachable when it was made under settings that can be in force, was perhaps limited
at once, and then performed any operations in any order, whether they succeeded or not. Operations
are data, so that a run can be restricted to some of them, which may depend on the simulator that
performs them. Every reachable simulator is well-formed.
-/

namespace SparseQuantum

set_option autoImplicit false

variable {R : Type}

/-- Settings that a process has: those it starts with, and those that changing a setting leaves. -/
inductive Settings.InForce : Settings → Prop where
  | started (lookup : String → Option String) (pluginPath dumpDirectory : String) (seed : UInt64) :
      InForce ((SettingOverrides.ofLookup lookup).applyTo ⟨pluginPath, seed, dumpDirectory, width⟩)
  | limited {settings : Settings} (before : InForce settings) (maxQubits : Nat) :
      InForce (settings.withMaxQubits maxQubits)
  | changed {settings : Settings} (before : InForce settings) (pluginPath dumpDirectory : String)
      (seed : UInt64) : InForce { settings with pluginPath, seed, dumpDirectory }

theorem Settings.InForce.max_qubits_le {settings : Settings} (inForce : settings.InForce) :
    settings.maxQubits ≤ width := by
  induction inForce with
  | started lookup pluginPath dumpDirectory seed =>
      simp only [SettingOverrides.applyTo, SettingOverrides.ofLookup]
      cases (lookup "SPARQ_MAX_QUBITS").bind SettingOverrides.number? with
      | none => exact Nat.le_refl width
      | some value => exact Nat.min_le_right value.toNat width
  | limited _ maxQubits => exact Nat.min_le_right maxQubits width
  | changed _ _ _ _ induction => exact induction

inductive Operation (R : Type) where
  | alloc (qubit : QubitId) (dirty : Bool)
  | free (qubit : QubitId) (dirty : Bool)
  | gate (gate : Gate R) (target : QubitId) (controls : List QubitId)
  | measure (qubit : QubitId)
  | plugin (plugin : Plugin R) (targets : List QubitId) (arguments : String) (inverse : Bool)
      (controls : List QubitId)
  | dump (qubits : List QubitId)
  | setRegister (register : RegisterId) (value : Int64)

def leaves {α : Type} : EStateM.Result Stop (Simulator R) α → Simulator R
  | .ok _ after => after
  | .error _ after => after

def Fails {α : Type} : EStateM.Result Stop (Simulator R) α → Prop
  | .ok _ _ => False
  | .error _ _ => True

instance {α : Type} (result : EStateM.Result Stop (Simulator R) α) : Decidable (Fails result) :=
  match result with
  | .ok _ _ => .isFalse id
  | .error _ _ => .isTrue trivial

theorem ok_of_not_fails {α : Type} {result : EStateM.Result Stop (Simulator R) α}
    (done : ¬Fails result) : ∃ value, result = .ok value (leaves result) := by
  cases result with
  | ok value after => exact ⟨value, rfl⟩
  | error stop after => exact absurd trivial done

namespace Operation

theorem leaves_discard {α : Type} (action : Action R α) (before : Simulator R) :
    leaves ((discard action : Action R Unit) before) = leaves (action before) := by
  change leaves (EStateM.map (Function.const α ()) action before) = _
  rw [EStateM.map]
  cases action before <;> rfl

theorem fails_discard {α : Type} (action : Action R α) (before : Simulator R) :
    Fails ((discard action : Action R Unit) before) ↔ Fails (action before) := by
  change Fails (EStateM.map (Function.const α ()) action before) ↔ _
  rw [EStateM.map]
  cases action before <;> rfl

variable [Scalar R]

def perform : Operation R → Action R Unit
  | .alloc qubit dirty => Simulator.alloc qubit dirty
  | .free qubit dirty => Simulator.free qubit dirty
  | .gate kind target controls => Simulator.applyGate kind target controls
  | .measure qubit => discard (Simulator.measure qubit)
  | .plugin code targets arguments inverse controls =>
      discard (Simulator.applyPlugin code targets arguments inverse controls)
  | .dump qubits => discard (Simulator.takeDump qubits)
  | .setRegister register value => Action.setRegister register value

end Operation

namespace Simulator

variable [Scalar R]

/-- Simulators that operations lead to, each allowed on the simulator that performs it. -/
inductive Reachable (allowed : Simulator R → Operation R → Prop) : Simulator R → Prop where
  | seeded {settings : Settings} (inForce : settings.InForce) (seed : UInt64) :
      Reachable allowed (ofSeed settings.maxQubits seed)
  | limited {settings : Settings} (inForce : settings.InForce) (seed : UInt64) (maxQubits : Nat) :
      Reachable allowed ((ofSeed settings.maxQubits seed).withMaxQubits maxQubits)
  | step {before : Simulator R} (reached : Reachable allowed before) {operation : Operation R}
      (allow : allowed before operation) : Reachable allowed (leaves (operation.perform before))

/-! ### Every operation keeps a simulator well-formed -/

theorem of_seed_well_formed {maxQubits : Nat} (bound : maxQubits ≤ width) (seed : UInt64) :
    (ofSeed maxQubits seed : Simulator R).WellFormed := by
  have nobody : ∀ slot, ¬(ofSeed maxQubits seed : Simulator R).Allocated slot := by
    rintro slot ⟨qubit, found⟩
    change (∅ : Std.ExtTreeMap QubitId Nat compare)[qubit]? = some slot at found
    rw [Std.ExtTreeMap.getElem?_empty] at found
    exact absurd found (by simp)
  refine ⟨Arena.empty_well_formed, ?_, List.nodup_nil, List.nodup_nil, ?_, ?_, ?_, ?_,
    Nat.zero_le _, bound, ?_⟩
  · intro first second slot found
    exact absurd ⟨first, found⟩ (nobody slot)
  · exact fun slot member => absurd member List.not_mem_nil
  · exact fun slot member => absurd member List.not_mem_nil
  · exact List.disjoint_nil_left _
  · intro slot
    constructor
    · intro issued
      exact absurd issued (Nat.not_lt_zero slot)
    · rintro (allocated | free | parked)
      · exact absurd allocated (nobody slot)
      · exact absurd free List.not_mem_nil
      · exact absurd parked List.not_mem_nil
  · intro slot
    constructor
    · intro owned
      exact absurd owned (Arena.empty_owns_nothing slot)
    · rintro (allocated | parked)
      · exact absurd allocated (nobody slot)
      · exact absurd parked List.not_mem_nil

theorem WellFormed.regrouped {before after : Simulator R} (wellFormed : before.WellFormed)
    (arena : after.arena.WellFormed)
    (owns : ∀ slot, after.arena.Owns slot ↔ before.arena.Owns slot)
    (allocation : after.allocation = before.allocation)
    (free : after.freeSlots = before.freeSlots) (parked : after.parkedSlots = before.parkedSlots)
    (next : after.nextSlot = before.nextSlot) (limit : after.maxQubits = before.maxQubits) :
    after.WellFormed := by
  have same : ∀ slot, after.Allocated slot ↔ before.Allocated slot := by
    intro slot
    rw [Allocated, Allocated, allocation]
  refine ⟨arena, ?_, ?_, ?_, ?_, ?_, ?_, ?_, ?_, ?_, ?_⟩
  · rw [allocation]
    exact wellFormed.table_injective
  · rw [free]
    exact wellFormed.free_distinct
  · rw [parked]
    exact wellFormed.parked_distinct
  · simp only [free, same]
    exact wellFormed.free_unallocated
  · simp only [parked, same]
    exact wellFormed.parked_unallocated
  · rw [free, parked]
    exact wellFormed.free_not_parked
  · simp only [next, free, parked, same]
    exact wellFormed.issued_iff
  · rw [next, limit]
    exact wellFormed.next_le
  · rw [limit]
    exact wellFormed.max_le
  · simp only [owns, parked, same]
    exact wellFormed.owns_iff

omit [Scalar R] in
theorem allocated_insert {before after : Simulator R} {qubit : QubitId} {slot : Nat}
    (table : after.allocation = before.allocation.insert qubit slot)
    (unknown : before.allocation[qubit]? = none) (other : Nat) :
    after.Allocated other ↔ other = slot ∨ before.Allocated other := by
  rw [Allocated, Allocated, table]
  constructor
  · rintro ⟨holder, found⟩
    rw [get_insert] at found
    split_ifs at found with same
    · exact Or.inl (Option.some.inj found).symm
    · exact Or.inr ⟨holder, found⟩
  · rintro (same | ⟨holder, found⟩)
    · exact ⟨qubit, by rw [get_insert, if_pos rfl, same]⟩
    · have different : holder ≠ qubit := by
        intro same
        rw [same, unknown] at found
        exact absurd found (by simp)
      exact ⟨holder, by rw [get_insert, if_neg different, found]⟩

theorem allocated_erase {before after : Simulator R} (wellFormed : before.WellFormed)
    {qubit : QubitId} {slot : Nat} (table : after.allocation = before.allocation.erase qubit)
    (found : before.allocation[qubit]? = some slot) (other : Nat) :
    after.Allocated other ↔ other ≠ slot ∧ before.Allocated other := by
  rw [Allocated, Allocated, table]
  constructor
  · rintro ⟨holder, read⟩
    rw [get_erase] at read
    split_ifs at read with same
    refine ⟨?_, holder, read⟩
    intro there
    exact same (wellFormed.table_injective holder qubit slot (by rw [read, there]) found)
  · rintro ⟨elsewhere, holder, read⟩
    have different : holder ≠ qubit := by
      intro same
      rw [same, found, Option.some.injEq] at read
      exact elsewhere read.symm
    exact ⟨holder, by rw [get_erase, if_neg different, read]⟩

theorem injective_insert {before : Simulator R} (wellFormed : before.WellFormed) {qubit : QubitId}
    {slot : Nat} (unallocated : ¬before.Allocated slot) (first second : QubitId) (shared : Nat)
    (firstFound : (before.allocation.insert qubit slot)[first]? = some shared)
    (secondFound : (before.allocation.insert qubit slot)[second]? = some shared) :
    first = second := by
  rw [get_insert] at firstFound secondFound
  split_ifs at firstFound secondFound with isFirst isSecond
  · rw [isFirst, isSecond]
  · exact absurd ⟨second, by rw [secondFound, firstFound]⟩ unallocated
  · exact absurd ⟨first, by rw [firstFound, secondFound]⟩ unallocated
  · exact wellFormed.table_injective first second shared firstFound secondFound

theorem injective_erase {before : Simulator R} (wellFormed : before.WellFormed) {qubit : QubitId}
    (first second : QubitId) (shared : Nat)
    (firstFound : (before.allocation.erase qubit)[first]? = some shared)
    (secondFound : (before.allocation.erase qubit)[second]? = some shared) : first = second := by
  rw [get_erase] at firstFound secondFound
  split_ifs at firstFound secondFound
  exact wellFormed.table_injective first second shared firstFound secondFound

theorem Takes.not_issued {before : Simulator R} (wellFormed : before.WellFormed)
    {slot next : Nat} {rest : List Nat} (takes : Takes before slot rest next) :
    ¬before.Allocated slot ∧ slot ∉ before.parkedSlots := by
  rw [← not_or, ← wellFormed.owns_iff]
  exact takes.not_owned wellFormed

theorem Takes.issued_iff {before : Simulator R} (wellFormed : before.WellFormed)
    {slot next : Nat} {rest : List Nat} (takes : Takes before slot rest next) (other : Nat) :
    other < next ↔
      (other = slot ∨ before.Allocated other) ∨ other ∈ rest ∨ other ∈ before.parkedSlots := by
  have issued := wellFormed.issued_iff other
  cases takes with
  | recycled free =>
      rw [issued, free, List.mem_cons]
      tauto
  | issued noneFree room =>
      rw [noneFree] at issued
      have split : other < before.nextSlot + 1 ↔
          other = before.nextSlot ∨ other < before.nextSlot := by omega
      rw [split, issued]
      tauto

theorem WellFormed.assigned {before after : Simulator R} (wellFormed : before.WellFormed)
    (arena : after.arena.WellFormed) {qubit : QubitId} {slot : Nat}
    (unknown : before.allocation[qubit]? = none) (unallocated : ¬before.Allocated slot)
    (table : after.allocation = before.allocation.insert qubit slot)
    (free : after.freeSlots.Sublist before.freeSlots)
    (parked : after.parkedSlots.Sublist before.parkedSlots) (notFree : slot ∉ after.freeSlots)
    (notParked : slot ∉ after.parkedSlots)
    (issued : ∀ other, other < after.nextSlot ↔ (other = slot ∨ before.Allocated other) ∨
      other ∈ after.freeSlots ∨ other ∈ after.parkedSlots)
    (next : after.nextSlot ≤ after.maxQubits) (limit : after.maxQubits = before.maxQubits)
    (owns : ∀ other, after.arena.Owns other ↔
      (other = slot ∨ before.Allocated other) ∨ other ∈ after.parkedSlots) :
    after.WellFormed := by
  refine ⟨arena, ?_, wellFormed.free_distinct.sublist free,
    wellFormed.parked_distinct.sublist parked, ?_, ?_, ?_, ?_, next, ?_, ?_⟩
  · rw [table]
    exact injective_insert wellFormed unallocated
  · intro other member
    rw [allocated_insert table unknown]
    rintro (same | allocated)
    · rw [same] at member
      exact notFree member
    · exact wellFormed.free_unallocated other (free.subset member) allocated
  · intro other member
    rw [allocated_insert table unknown]
    rintro (same | allocated)
    · rw [same] at member
      exact notParked member
    · exact wellFormed.parked_unallocated other (parked.subset member) allocated
  · intro other inFree inParked
    exact wellFormed.free_not_parked (free.subset inFree) (parked.subset inParked)
  · intro other
    rw [allocated_insert table unknown]
    exact issued other
  · rw [limit]
    exact wellFormed.max_le
  · intro other
    rw [allocated_insert table unknown]
    exact owns other

theorem AllocOutcome.well_formed {before : Simulator R} (wellFormed : before.WellFormed)
    {qubit : QubitId} {dirty : Bool} {result : EStateM.Result Stop (Simulator R) Unit}
    (outcome : AllocOutcome qubit dirty before result) : (leaves result).WellFormed := by
  cases outcome with
  | known => exact wellFormed
  | exhausted => exact wellFormed
  | @unparked slot rest unknown isDirty parked =>
      have distinct : slot ∉ rest ∧ rest.Nodup := by
        rw [← List.nodup_cons, ← parked]
        exact wellFormed.parked_distinct
      have isParked : ∀ other, other ∈ before.parkedSlots ↔ other = slot ∨ other ∈ rest := by
        intro other
        rw [parked, List.mem_cons]
      have wasParked := (isParked slot).2 (Or.inl rfl)
      have fewer : rest.Sublist before.parkedSlots := by
        rw [parked]
        exact List.sublist_cons_self slot rest
      refine wellFormed.assigned wellFormed.arena unknown
        (wellFormed.parked_unallocated slot wasParked) rfl (List.Sublist.refl _) fewer
        (fun free => wellFormed.free_not_parked free wasParked) distinct.1 ?_ wellFormed.next_le rfl
        ?_
      · intro other
        have issued := wellFormed.issued_iff other
        rw [isParked] at issued
        change other < before.nextSlot ↔ _ ∨ other ∈ before.freeSlots ∨ other ∈ rest
        rw [issued]
        tauto
      · intro other
        have owns := wellFormed.owns_iff other
        rw [isParked] at owns
        change before.arena.Owns other ↔ _ ∨ other ∈ rest
        rw [owns]
        tauto
  | @fresh slot next place rest grown unknown unparked takes inserts arena =>
      have elsewhere := takes.not_issued wellFormed
      have spec : rest.Sublist before.freeSlots ∧ slot ∉ rest ∧ next ≤ before.maxQubits := by
        cases takes with
        | recycled free =>
            have distinct := wellFormed.free_distinct
            rw [free, List.nodup_cons] at distinct
            rw [free]
            exact ⟨List.sublist_cons_self slot rest, distinct.1, wellFormed.next_le⟩
        | issued _ room => exact ⟨List.nil_sublist _, List.not_mem_nil, room⟩
      refine wellFormed.assigned arena unknown elsewhere.1 rfl spec.1 (List.Sublist.refl _)
        spec.2.1 elsewhere.2 (takes.issued_iff wellFormed) spec.2.2 rfl ?_
      intro other
      change grown.Owns other ↔ _ ∨ other ∈ before.parkedSlots
      rw [Arena.inserts_owns_iff inserts, wellFormed.owns_iff, or_assoc]

theorem WellFormed.released {before after : Simulator R} (wellFormed : before.WellFormed)
    (arena : after.arena.WellFormed) {qubit : QubitId} {slot : Nat}
    (found : before.allocation[qubit]? = some slot)
    (table : after.allocation = before.allocation.erase qubit)
    (pools : (after.freeSlots = slot :: before.freeSlots ∧ after.parkedSlots = before.parkedSlots) ∨
      after.freeSlots = before.freeSlots ∧ after.parkedSlots = slot :: before.parkedSlots)
    (next : after.nextSlot = before.nextSlot) (limit : after.maxQubits = before.maxQubits)
    (owns : ∀ other, after.arena.Owns other ↔
      (other ≠ slot ∧ before.Allocated other) ∨ other ∈ after.parkedSlots) :
    after.WellFormed := by
  have allocated : before.Allocated slot := ⟨qubit, found⟩
  have notFree : slot ∉ before.freeSlots :=
    fun member => wellFormed.free_unallocated slot member allocated
  have notParked : slot ∉ before.parkedSlots :=
    fun member => wellFormed.parked_unallocated slot member allocated
  have pooled : ∀ other, other ∈ after.freeSlots ∨ other ∈ after.parkedSlots ↔
      other = slot ∨ other ∈ before.freeSlots ∨ other ∈ before.parkedSlots := by
    intro other
    rcases pools with ⟨free, parked⟩ | ⟨free, parked⟩
    · rw [free, parked, List.mem_cons, or_assoc]
    · rw [free, parked, List.mem_cons]
      tauto
  have unallocated : ∀ other, other ∈ after.freeSlots ∨ other ∈ after.parkedSlots →
      ¬after.Allocated other := by
    intro other member
    rw [allocated_erase wellFormed table found]
    rintro ⟨elsewhere, held⟩
    rcases (pooled other).1 member with same | free | parked
    · exact elsewhere same
    · exact wellFormed.free_unallocated other free held
    · exact wellFormed.parked_unallocated other parked held
  refine ⟨arena, ?_, ?_, ?_, fun other member => unallocated other (Or.inl member),
    fun other member => unallocated other (Or.inr member), ?_, ?_, ?_, ?_, ?_⟩
  · rw [table]
    exact injective_erase wellFormed
  · rcases pools with ⟨free, _⟩ | ⟨free, _⟩
    · rw [free]
      exact List.nodup_cons.2 ⟨notFree, wellFormed.free_distinct⟩
    · rw [free]
      exact wellFormed.free_distinct
  · rcases pools with ⟨_, parked⟩ | ⟨_, parked⟩
    · rw [parked]
      exact wellFormed.parked_distinct
    · rw [parked]
      exact List.nodup_cons.2 ⟨notParked, wellFormed.parked_distinct⟩
  · rcases pools with ⟨free, parked⟩ | ⟨free, parked⟩
    · rw [free, parked]
      exact List.disjoint_cons_left.2 ⟨notParked, wellFormed.free_not_parked⟩
    · rw [free, parked]
      exact List.disjoint_cons_right.2 ⟨notFree, wellFormed.free_not_parked⟩
  · intro other
    rw [next, wellFormed.issued_iff, allocated_erase wellFormed table found, pooled]
    by_cases same : other = slot
    · simp [same, allocated]
    · simp [same]
  · rw [next, limit]
    exact wellFormed.next_le
  · rw [limit]
    exact wellFormed.max_le
  · intro other
    rw [allocated_erase wellFormed table found]
    exact owns other

theorem FreeOutcome.well_formed {before : Simulator R} (wellFormed : before.WellFormed)
    {qubit : QubitId} {dirty : Bool} {result : EStateM.Result Stop (Simulator R) Unit}
    (outcome : FreeOutcome qubit dirty before result) : (leaves result).WellFormed := by
  cases outcome with
  | refused => exact wellFormed
  | @parked slot found isDirty =>
      refine wellFormed.released wellFormed.arena found rfl (Or.inr ⟨rfl, rfl⟩) rfl rfl ?_
      intro other
      have allocated : before.Allocated slot := ⟨qubit, found⟩
      change before.arena.Owns other ↔ _ ∨ other ∈ slot :: before.parkedSlots
      rw [List.mem_cons, wellFormed.owns_iff]
      by_cases same : other = slot
      · simp [same, allocated]
      · simp [same]
  | @cleaned slot place partition bit draws left found isClean owner stands sampled detaches
      arena =>
      refine wellFormed.released arena found rfl (Or.inl ⟨rfl, rfl⟩) rfl rfl ?_
      intro other
      have notParked : slot ∉ before.parkedSlots :=
        fun member => wellFormed.parked_unallocated slot member ⟨qubit, found⟩
      change left.Owns other ↔ _ ∨ other ∈ before.parkedSlots
      rw [Arena.detaches_owns_iff detaches]
      change other ≠ slot ∧ before.arena.Owns other ↔ _
      rw [wellFormed.owns_iff]
      by_cases same : other = slot
      · simp [same, notParked]
      · simp [same]

theorem GateOutcome.well_formed {before : Simulator R} (wellFormed : before.WellFormed)
    {gate : Gate R} {target : QubitId} {controls : List QubitId}
    {result : EStateM.Result Stop (Simulator R) Unit}
    (outcome : GateOutcome gate target controls before result) : (leaves result).WellFormed := by
  cases outcome with
  | refused => exact wellFormed
  | skipped => exact wellFormed
  | applied found matters gathers =>
      exact wellFormed.regrouped
        (Arena.with_state_well_formed gathers.well_formed gathers.used _)
        (fun slot => Arena.merges_owns_iff gathers.merges slot) rfl rfl rfl rfl rfl

theorem MeasureOutcome.well_formed {before : Simulator R} (wellFormed : before.WellFormed)
    {qubit : QubitId} {result : EStateM.Result Stop (Simulator R) Bool}
    (outcome : MeasureOutcome qubit before result) : (leaves result).WellFormed := by
  cases outcome with
  | refused => exact wellFormed
  | measured found owner stands sampled =>
      have used := wellFormed.arena.used_of_owner owner
      exact wellFormed.regrouped (Arena.with_state_well_formed wellFormed.arena used _)
        (fun slot => Iff.rfl) rfl rfl rfl rfl rfl

theorem PluginOutcome.well_formed {before : Simulator R} (wellFormed : before.WellFormed)
    {plugin : Plugin R} {targets : List QubitId} {arguments : String} {inverse : Bool}
    {controls : List QubitId} {result : EStateM.Result Stop (Simulator R) (Option (PluginCall R))}
    (outcome : PluginOutcome plugin targets arguments inverse controls before result) :
    (leaves result).WellFormed := by
  cases outcome with
  | refused => exact wellFormed
  | skipped => exact wellFormed
  | idle => exact wellFormed
  | @ran _ _ _ _ _ _ _ _ call _ _ _ gathers =>
      rcases plugin.run call with ⟨left, stop | ⟨⟩⟩
      · exact wellFormed.regrouped gathers.well_formed
          (fun slot => Arena.merges_owns_iff gathers.merges slot) rfl rfl rfl rfl rfl
      · exact wellFormed.regrouped
          (Arena.with_state_well_formed gathers.well_formed gathers.used _)
          (fun slot => Arena.merges_owns_iff gathers.merges slot) rfl rfl rfl rfl rfl

theorem DumpOutcome.well_formed {before : Simulator R} (wellFormed : before.WellFormed)
    {qubits : List QubitId} {result : EStateM.Result Stop (Simulator R) Nat}
    (outcome : DumpOutcome qubits before result) : (leaves result).WellFormed := by
  cases outcome with
  | refused => exact wellFormed
  | empty =>
      exact wellFormed.regrouped wellFormed.arena (fun slot => Iff.rfl) rfl rfl rfl rfl rfl
  | recorded found gathers =>
      exact wellFormed.regrouped gathers.well_formed
        (fun slot => Arena.merges_owns_iff gathers.merges slot) rfl rfl rfl rfl rfl

/-- One operation, whether it succeeds or not, keeps a simulator well-formed. -/
theorem perform_well_formed {before : Simulator R} (wellFormed : before.WellFormed)
    (operation : Operation R) : (leaves (operation.perform before)).WellFormed := by
  cases operation with
  | alloc qubit dirty => exact (alloc_outcome wellFormed qubit dirty).well_formed wellFormed
  | free qubit dirty => exact (free_outcome wellFormed qubit dirty).well_formed wellFormed
  | gate gate target controls =>
      exact (gate_outcome wellFormed gate target controls).well_formed wellFormed
  | measure qubit =>
      rw [Operation.perform, Operation.leaves_discard]
      exact (measure_outcome wellFormed qubit).well_formed wellFormed
  | plugin plugin targets arguments inverse controls =>
      rw [Operation.perform, Operation.leaves_discard]
      exact (plugin_outcome wellFormed plugin targets arguments inverse controls).well_formed
        wellFormed
  | dump qubits =>
      rw [Operation.perform, Operation.leaves_discard]
      exact (dump_outcome wellFormed qubits).well_formed wellFormed
  | setRegister register value =>
      exact wellFormed.regrouped wellFormed.arena (fun slot => Iff.rfl) rfl rfl rfl rfl rfl

/-! ### What an operation does to the partitions -/

/-- The partitions that an operation leaves, however it ends: all that it can do to them. -/
inductive Regroups (before : Simulator R) : Operation R → Arena R → Prop where
  | kept (operation : Operation R) : Regroups before operation before.arena
  | grown {qubit : QubitId} {dirty : Bool} {slot place : Nat} {grown : Arena R}
      (unowned : ¬before.arena.Owns slot)
      (inserts : Arena.Inserts before.arena grown slot place) :
      Regroups before (.alloc qubit dirty) grown
  | cleaned {qubit : QubitId} {slot place : Nat} {partition : Partition R} {bit : Bool}
      {left : Arena R} (found : before.allocation[qubit]? = some slot)
      (owner : before.arena.owner? slot = some place)
      (stands : before.arena.partitions[place]? = some partition)
      (detaches : Arena.Detaches
        (before.arena.withState place (partition.state.collapse slot bit true)) left slot place
        { partition with state := partition.state.collapse slot bit true }) :
      Regroups before (.free qubit false) left
  | turned {gate : Gate R} {target : QubitId} {controls : List QubitId} {slot place : Nat}
      {live : List Nat} {merged : Arena R} {partition : Partition R}
      (gathers : Arena.Gathers before.arena merged slot live place partition) :
      Regroups before (.gate gate target controls)
        (merged.withState place (partition.state.applyGate gate slot live))
  | collapsed {qubit : QubitId} {slot place : Nat} {partition : Partition R} {bit : Bool}
      (owner : before.arena.owner? slot = some place)
      (stands : before.arena.partitions[place]? = some partition) :
      Regroups before (.measure qubit)
        (before.arena.withState place (partition.state.collapse slot bit false))
  | gathered {operation : Operation R} {first place : Nat} {others : List Nat} {merged : Arena R}
      {partition : Partition R}
      (gathers : Arena.Gathers before.arena merged first others place partition) :
      Regroups before operation merged
  | rejoined {plugin : Plugin R} {targets controls : List QubitId} {arguments : String}
      {inverse : Bool} {first place : Nat} {rest controlSlots live : List Nat} {merged : Arena R}
      {partition : Partition R} {sigma : Equiv.Perm Nat} {call : PluginCall R}
      {left : SparseState R}
      (found : before.Operands (targets ++ controls) (first :: rest ++ controlSlots))
      (count : (first :: rest).length = targets.length)
      (matters : Live before controlSlots live)
      (gathers : Arena.Gathers before.arena merged first (rest ++ live) place partition)
      (layout : sigma = Layout.permutation (Layout.swaps (first :: rest ++ live)))
      (hands : call = handed (partition.state.permute sigma) targets.length live.length arguments
        inverse)
      (ran : plugin.run call = (left, .ok ()))
      (answer : ∃ after,
        applyPlugin plugin targets arguments inverse controls before = .ok (some call) after) :
      Regroups before (.plugin plugin targets arguments inverse controls)
        (merged.withState place ((Simulator.rejoined (partition.state.permute sigma) left
          call.targets call.controls).permute sigma.symm))

theorem perform_regroups {before : Simulator R} (wellFormed : before.WellFormed)
    (operation : Operation R) :
    Regroups before operation (leaves (operation.perform before)).arena := by
  cases operation with
  | alloc qubit dirty =>
      have outcome := alloc_outcome wellFormed qubit dirty
      rw [Operation.perform]
      generalize alloc qubit dirty before = result at outcome ⊢
      cases outcome with
      | known => exact .kept _
      | unparked => exact .kept _
      | exhausted => exact .kept _
      | fresh _ _ takes inserts _ => exact .grown (takes.not_owned wellFormed) inserts
  | free qubit dirty =>
      have outcome := free_outcome wellFormed qubit dirty
      rw [Operation.perform]
      generalize free qubit dirty before = result at outcome ⊢
      cases outcome with
      | refused => exact .kept _
      | parked => exact .kept _
      | cleaned found isClean owner stands _ detaches _ =>
          rw [isClean]
          exact .cleaned found owner stands detaches
  | gate gate target controls =>
      have outcome := gate_outcome wellFormed gate target controls
      rw [Operation.perform]
      generalize applyGate gate target controls before = result at outcome ⊢
      cases outcome with
      | refused => exact .kept _
      | skipped => exact .kept _
      | applied _ _ gathers => exact .turned gathers
  | measure qubit =>
      have outcome := measure_outcome wellFormed qubit
      rw [Operation.perform, Operation.leaves_discard]
      generalize measure qubit before = result at outcome ⊢
      cases outcome with
      | refused => exact .kept _
      | measured _ owner stands _ => exact .collapsed owner stands
  | plugin plugin targets arguments inverse controls =>
      have outcome := plugin_outcome wellFormed plugin targets arguments inverse controls
      rw [Operation.perform, Operation.leaves_discard]
      generalize answer : applyPlugin plugin targets arguments inverse controls before = result
        at outcome ⊢
      cases outcome with
      | refused => exact .kept _
      | skipped => exact .kept _
      | idle => exact .kept _
      | @ran _ _ _ _ _ _ _ _ call found count matters gathers layout hands =>
          rcases ran : plugin.run call with ⟨left, stop | ⟨⟩⟩
          · exact .gathered gathers
          · rw [ran] at answer
            exact .rejoined found count matters gathers layout hands ran ⟨_, answer⟩
  | dump qubits =>
      have outcome := dump_outcome wellFormed qubits
      rw [Operation.perform, Operation.leaves_discard]
      generalize takeDump qubits before = result at outcome ⊢
      cases outcome with
      | refused => exact .kept _
      | empty => exact .kept _
      | recorded _ gathers => exact .gathered gathers
  | setRegister register value => exact .kept _

/-- A run of any length keeps a simulator well-formed, by induction on the run. -/
theorem reachable_well_formed {allowed : Simulator R → Operation R → Prop} {simulator : Simulator R}
    (reached : Reachable allowed simulator) : simulator.WellFormed := by
  induction reached with
  | seeded inForce seed => exact of_seed_well_formed inForce.max_qubits_le seed
  | limited inForce seed maxQubits =>
      exact of_seed_well_formed (Nat.min_le_right maxQubits width) seed
  | step _ _ induction => exact perform_well_formed induction _

end Simulator

end SparseQuantum
