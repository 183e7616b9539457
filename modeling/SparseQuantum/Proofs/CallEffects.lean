import Mathlib
import SparseQuantum.Proofs.GatheredPartitions
import SparseQuantum.Proofs.UnobservableSlots

/-!
# What gates and plugins read and write

A gate or plugin reads which slots its operands have and which partitions own them, and nothing else
of a simulator. It answers and puts in the joined partition of its operands, or puts in nothing.
-/

namespace SparseQuantum

set_option autoImplicit false

open Simulator Arena

variable {R : Type}

namespace Ownership

def known? (owned : Ownership R) (slot : Nat) : Option Bool :=
  match owned slot with
  | some partition =>
      match partition.state.entries with
      | [(index, _)] => some (index.isOne slot)
      | _ => none
  | none => none

def amend (owned : Ownership R) : Option (Partition R) → Ownership R
  | some partition => owned.put partition
  | none => owned

end Ownership

inductive Call (R : Type) where
  | gate (gate : Gate R) (target : QubitId) (controls : List QubitId)
  | plugin (plugin : Plugin R) (targets : List QubitId) (arguments : String) (inverse : Bool)
      (controls : List QubitId)

namespace Call

def operation : Call R → Operation R
  | gate kind target controls => .gate kind target controls
  | plugin code targets arguments inverse controls =>
      .plugin code targets arguments inverse controls

def targets : Call R → List QubitId
  | gate _ target _ => [target]
  | plugin _ targets _ _ _ => targets

def controls : Call R → List QubitId
  | gate _ _ controls => controls
  | plugin _ _ _ _ controls => controls

def operands (call : Call R) : List QubitId := call.targets ++ call.controls

variable [Scalar R]

/-- The answer and the joined state once a plugin has answered what it was handed of that state,
whose operands `sigma` has brought to the front. -/
def treated (state : SparseState R) (sigma : Equiv.Perm Nat) (call : PluginCall R) :
    SparseState R × Except Stop Unit → Answer × SparseState R
  | (left, .ok ()) =>
      (.done, (rejoined (state.permute sigma) left call.targets call.controls).permute sigma.symm)
  | (_, .error stop) => (.stopped stop, state)

def treat (first : Nat) (rest live : List Nat) (state : SparseState R) :
    Call R → Answer × SparseState R
  | gate kind _ _ => (.done, state.applyGate kind first live)
  | plugin code targets arguments inverse _ =>
      let sigma := Layout.permutation (Layout.swaps (first :: rest ++ live))
      let call := handed (state.permute sigma) targets.length live.length arguments inverse
      treated state sigma call (code.run call)

/-- The answer, and the partition that is put in, for the slots of targets and controls. -/
def effect (call : Call R) (owned : Ownership R) (targets controls : List Nat) :
    Answer × Option (Partition R) :=
  match targets with
  | [] => (.done, none)
  | first :: rest =>
      if ∃ slot ∈ controls, owned.known? slot = some false then (.done, none)
      else
        let live := controls.filter fun slot => owned.known? slot ≠ some true
        match owned first with
        | none => (.done, none)
        | some target =>
            let joined := owned.gather target (rest ++ live)
            let (answer, state) := call.treat first rest live joined.state
            (answer, some { joined with state })

def outcome (call : Call R) (owned : Ownership R) :
    Except SimulatorError (List Nat) → Answer × Option (Partition R)
  | .error error => (.stopped (.refused error), none)
  | .ok slots =>
      call.effect owned (slots.take call.targets.length) (slots.drop call.targets.length)

structure Has {α : Type} (before : Simulator R) (tell : α → Answer)
    (result : EStateM.Result Stop (Simulator R) α) (effect : Answer × Option (Partition R)) :
    Prop where
  answer : answerOf tell result = effect.1
  left : ∃ arena : Arena R, leaves result = { before with arena } ∧
    arena.partitionOf? = Ownership.amend before.arena.partitionOf? effect.2

omit [Scalar R] in
theorem Has.nothing {α : Type} {before : Simulator R} {tell : α → Answer}
    {result : EStateM.Result Stop (Simulator R) α} {answer : Answer}
    (told : answerOf tell result = answer) (unchanged : leaves result = before) :
    Has before tell result (answer, none) :=
  ⟨told, before.arena, unchanged, rfl⟩

theorem outcome_of_found (call : Call R) (owned : Ownership R) {targets controls : List Nat}
    (count : targets.length = call.targets.length) :
    call.outcome owned (.ok (targets ++ controls)) = call.effect owned targets controls := by
  rw [outcome, List.take_left' count, List.drop_left' count]

theorem effect_of_decided (call : Call R) {before : Simulator R} {targets controls : List Nat}
    (decided : ∃ slot ∈ controls, before.arena.known? slot = some false) :
    call.effect before.arena.partitionOf? targets controls = (.done, none) := by
  cases targets with
  | nil => rfl
  | cons first rest => exact if_pos decided

theorem effect_of_live (call : Call R) {before : Simulator R} {first : Nat}
    {rest controls live : List Nat} {target : Partition R}
    (owner : before.arena.partitionOf? first = some target)
    (matters : Live before controls live) :
    call.effect before.arena.partitionOf? (first :: rest) controls =
      let joined := Ownership.gather before.arena.partitionOf? target (rest ++ live)
      ((call.treat first rest live joined.state).1,
        some { joined with state := (call.treat first rest live joined.state).2 }) := by
  have undecided : ¬∃ slot ∈ controls,
      Ownership.known? before.arena.partitionOf? slot = some false := by
    rintro ⟨slot, member, zero⟩
    exact matters.undecided slot member zero
  have kept : live = controls.filter fun slot =>
      Ownership.known? before.arena.partitionOf? slot ≠ some true := matters.kept
  rw [effect, if_neg undecided, owner, kept]

end Call

namespace Simulator

variable [Scalar R]

def effectOf (simulator : Simulator R) (call : Call R) : Answer × Option (Partition R) :=
  call.outcome simulator.arena.partitionOf? (simulator.slotsOf [] call.operands)

omit [Scalar R] in
theorem slots_of_found {before : Simulator R} {qubits : List QubitId} {slots : List Nat}
    (found : before.Operands qubits slots) : before.slotsOf [] qubits = .ok slots :=
  (slots_of_operands before qubits slots).2 found

theorem gate_has_effect {before : Simulator R} (wellFormed : before.WellFormed) (kind : Gate R)
    (target : QubitId) (controls : List QubitId) :
    Call.Has before (fun _ => .done) (applyGate kind target controls before)
      (before.effectOf (.gate kind target controls)) := by
  let call := Call.gate kind target controls
  change Call.Has _ _ _ (call.outcome before.arena.partitionOf?
    (before.slotsOf [] (target :: controls)))
  have found {slot : Nat} {controlSlots : List Nat}
      (found : before.Operands (target :: controls) (slot :: controlSlots)) :
      call.outcome before.arena.partitionOf? (before.slotsOf [] (target :: controls)) =
        call.effect before.arena.partitionOf? [slot] controlSlots := by
    rw [slots_of_found found]
    exact call.outcome_of_found _ (show [slot].length = call.targets.length from rfl)
  have outcome := gate_outcome wellFormed kind target controls
  generalize applyGate kind target controls before = result at outcome ⊢
  cases outcome with
  | refused refused =>
      rw [refused]
      exact .nothing rfl rfl
  | skipped operands decided =>
      rw [found operands, Call.effect_of_decided _ decided]
      exact .nothing rfl rfl
  | applied operands matters gathers =>
      obtain ⟨first, owner, same, owners⟩ := gathers_reads wellFormed.arena gathers
      rw [found operands, Call.effect_of_live _ owner matters, List.nil_append, ← same]
      refine ⟨rfl, _, rfl, ?_⟩
      rw [partition_of_with_state_put gathers.well_formed gathers.found gathers.used, owners]
      exact Ownership.put_put_of_subset _ (List.Subset.refl _)

theorem answered_has_effect {before : Simulator R} {merged : Arena R} {first place : Nat}
    {others : List Nat} {partition : Partition R}
    (gathers : Gathers before.arena merged first others place partition)
    (owners : merged.partitionOf? = Ownership.put before.arena.partitionOf? partition)
    (sigma : Equiv.Perm Nat) (call : PluginCall R) (answer : SparseState R × Except Stop Unit) :
    Call.Has before (fun _ => .done)
      (answered before merged place partition.state sigma call answer)
      ((Call.treated partition.state sigma call answer).1, some { partition with
        state := (Call.treated partition.state sigma call answer).2 }) := by
  rcases answer with ⟨left, stop | ⟨⟩⟩
  · exact ⟨rfl, merged, rfl, owners⟩
  · refine ⟨rfl, _, rfl, ?_⟩
    rw [partition_of_with_state_put gathers.well_formed gathers.found gathers.used, owners]
    exact Ownership.put_put_of_subset _ (List.Subset.refl _)

theorem plugin_has_effect {before : Simulator R} (wellFormed : before.WellFormed)
    (code : Plugin R) (targets : List QubitId) (arguments : String) (inverse : Bool)
    (controls : List QubitId) :
    Call.Has before (fun _ => .done) (applyPlugin code targets arguments inverse controls before)
      (before.effectOf (.plugin code targets arguments inverse controls)) := by
  let call := Call.plugin code targets arguments inverse controls
  change Call.Has _ _ _ (call.outcome before.arena.partitionOf?
    (before.slotsOf [] (targets ++ controls)))
  have found {targetSlots controlSlots : List Nat}
      (found : before.Operands (targets ++ controls) (targetSlots ++ controlSlots))
      (count : targetSlots.length = targets.length) :
      call.outcome before.arena.partitionOf? (before.slotsOf [] (targets ++ controls)) =
        call.effect before.arena.partitionOf? targetSlots controlSlots := by
    rw [slots_of_found found]
    exact call.outcome_of_found _ count
  cases read : before.slotsOf [] (targets ++ controls) with
  | error error =>
      rw [apply_plugin_refused read]
      exact .nothing rfl rfl
  | ok slots =>
      rw [← read]
      have outcome := plugin_outcome wellFormed code targets arguments inverse controls
      generalize applyPlugin code targets arguments inverse controls before = result at outcome ⊢
      cases outcome with
      | refused refused => cases read.symm.trans refused
      | skipped operands count decided =>
          rw [found operands count, Call.effect_of_decided _ decided]
          exact .nothing rfl rfl
      | idle noTargets =>
          have listed := (slots_of_operands before _ _).1 read
          rw [@found [] slots listed (congrArg List.length noTargets).symm]
          exact .nothing rfl rfl
      | @ran first place rest controlSlots live merged partition sigma handedOver operands count
          matters gathers layout hands =>
          obtain ⟨target, owner, same, owners⟩ := gathers_reads wellFormed.arena gathers
          have treats : call.treat first rest live partition.state =
              Call.treated partition.state sigma handedOver (code.run handedOver) := by
            rw [hands, layout]
            rfl
          rw [found operands count, Call.effect_of_live _ owner matters, ← same]
          dsimp only
          rw [treats]
          exact answered_has_effect gathers owners sigma handedOver (code.run handedOver)

omit [Scalar R] in
theorem has_of_unlimited {α : Type} {before : Simulator R} {tell : α → Answer}
    {action : Action R α} (ignores : Action.IgnoresLimit action)
    {effect : Answer × Option (Partition R)}
    (has : Call.Has (before.underLimit width) tell (action (before.underLimit width)) effect) :
    Call.Has before tell (action before) effect := by
  have kept := ignores before before.maxQubits
  rw [show before.underLimit before.maxQubits = before from rfl] at kept
  rw [ignores] at has
  obtain ⟨arena, left, owned⟩ := has.left
  rw [leaves_result_under] at left
  constructor
  · rw [← has.answer]
    cases action before <;> rfl
  · refine ⟨arena, ?_, owned⟩
    rw [kept, leaves_result_under]
    exact congrArg (fun simulator => simulator.underLimit before.maxQubits) left

theorem effect_of_under_limit (simulator : Simulator R) (limit : Nat) (call : Call R) :
    (simulator.underLimit limit).effectOf call = simulator.effectOf call := by
  rw [effectOf, effectOf, slots_of_under_limit]
  rfl

/-- Every call has its effect, whatever the limit is by now. -/
theorem call_has_effect {before : Simulator R} (sound : before.Sound) (call : Call R) :
    call.operation.reply before = (before.effectOf call).1 ∧
    ∃ arena : Arena R, leaves (call.operation.perform before) = { before with arena } ∧
      arena.partitionOf? = Ownership.amend before.arena.partitionOf? (before.effectOf call).2 := by
  rw [← effect_of_under_limit before width]
  cases call with
  | gate kind target controls =>
      have has := has_of_unlimited (apply_gate_ignores_limit kind target controls)
        (gate_has_effect sound.unlimited kind target controls)
      exact ⟨has.answer, has.left⟩
  | plugin code targets arguments inverse controls =>
      have has := has_of_unlimited
        (apply_plugin_ignores_limit code targets arguments inverse controls)
        (plugin_has_effect sound.unlimited code targets arguments inverse controls)
      obtain ⟨arena, left, owned⟩ := has.left
      exact ⟨has.answer, arena, (Operation.leaves_discard _ before).trans left, owned⟩

end Simulator

/-! ### Reading and writing -/

namespace Call

variable [Scalar R]

omit [Scalar R] in
theorem known_congr {owned other : Ownership R} {slot : Nat} (same : owned slot = other slot) :
    owned.known? slot = other.known? slot := by
  rw [Ownership.known?, Ownership.known?, same]

/-- Only the owners of the operands are read. -/
theorem effect_congr (call : Call R) {owned other : Ownership R} {targets controls : List Nat}
    (same : ∀ slot ∈ targets ++ controls, owned slot = other slot) :
    call.effect owned targets controls = call.effect other targets controls := by
  cases targets with
  | nil => rfl
  | cons first rest =>
      have ofControl : ∀ slot ∈ controls, owned.known? slot = other.known? slot :=
        fun slot member => known_congr (same slot (List.mem_append_right _ member))
      have decided : (∃ slot ∈ controls, owned.known? slot = some false) ↔
          ∃ slot ∈ controls, other.known? slot = some false := by
        refine exists_congr fun slot => and_congr_right fun member => ?_
        rw [ofControl slot member]
      have live : (controls.filter fun slot => owned.known? slot ≠ some true) =
          controls.filter fun slot => other.known? slot ≠ some true := by
        apply List.filter_congr
        intro slot member
        rw [ofControl slot member]
      have gathered (target : Partition R) :
          owned.gather target (rest ++ controls.filter fun slot => other.known? slot ≠ some true) =
            other.gather target
              (rest ++ controls.filter fun slot => other.known? slot ≠ some true) := by
        apply Ownership.gather_congr
        intro slot member _
        apply same slot
        rw [List.cons_append, List.mem_cons, List.mem_append]
        rcases List.mem_append.1 member with target | control
        · exact Or.inr (Or.inl target)
        · exact Or.inr (Or.inr (List.mem_of_mem_filter control))
      rw [effect, effect, same first List.mem_cons_self, live]
      simp only [decided, gathered]

/-- What is put in is made of the partitions that own the operands. -/
theorem mem_effect {call : Call R} {owned : Ownership R} {targets controls : List Nat}
    {partition : Partition R}
    (puts : (call.effect owned targets controls).2 = some partition) {member : Nat}
    (here : member ∈ partition.members) :
    ∃ slot ∈ targets ++ controls, ∃ taken, owned slot = some taken ∧ member ∈ taken.members := by
  cases targets with
  | nil => cases puts
  | cons first rest =>
      rw [effect] at puts
      split_ifs at puts
      cases owner : owned first with
      | none =>
          rw [owner] at puts
          cases puts
      | some target =>
          rw [owner, Option.some.injEq] at puts
          rw [← puts] at here
          rcases Ownership.mem_gather here with mine | ⟨slot, listed, source⟩
          · exact ⟨first, List.mem_cons_self, target, owner, mine⟩
          · refine ⟨slot, ?_, source⟩
            rw [List.cons_append, List.mem_cons, List.mem_append]
            rcases List.mem_append.1 listed with target | control
            · exact Or.inr (Or.inl target)
            · exact Or.inr (Or.inr (List.mem_of_mem_filter control))

end Call

end SparseQuantum
