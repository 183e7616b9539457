import Mathlib
import SparseQuantum.Proofs.ChangingLimit

/-!
# Refused calls

When a call to a simulator is refused, on which grounds, and what it leaves. A refused call has done
nothing at all. A plugin that gives up has run on operands that were brought together before, and
their grouping stays; of its own work nothing does.
-/

namespace SparseQuantum

set_option autoImplicit false

variable {R : Type}

open SparseQuantum.Action

namespace Simulator

/-! ### The first operand that cannot be used -/

structure Usable (simulator : Simulator R) (qubits : List QubitId) : Prop where
  distinct : qubits.Nodup
  allocated : ∀ qubit ∈ qubits, simulator.allocation[qubit]? ≠ none

/-- What is wrong with the first operand that came before or is not allocated. -/
inductive FirstOffence (simulator : Simulator R) (qubits : List QubitId) :
    SimulatorError → Prop where
  | repeated {earlier later : List QubitId} {qubit : QubitId}
      (split : qubits = earlier ++ qubit :: later) (usable : simulator.Usable earlier)
      (again : qubit ∈ earlier) : FirstOffence simulator qubits (.duplicateQubit qubit)
  | missing {earlier later : List QubitId} {qubit : QubitId}
      (split : qubits = earlier ++ qubit :: later) (usable : simulator.Usable earlier)
      (unknown : simulator.allocation[qubit]? = none) :
      FirstOffence simulator qubits (.notAllocated qubit)

variable {simulator : Simulator R}

theorem Usable.concat {qubits : List QubitId} {qubit : QubitId} (usable : simulator.Usable qubits)
    (fresh : qubit ∉ qubits) (known : simulator.allocation[qubit]? ≠ none) :
    simulator.Usable (qubits ++ [qubit]) := by
  constructor
  · rw [← List.concat_eq_append]
    exact usable.distinct.concat fresh
  · intro other member
    rcases List.mem_append.1 member with earlier | last
    · exact usable.allocated other earlier
    · rw [List.mem_singleton.1 last]
      exact known

theorem FirstOffence.not_usable {qubits : List QubitId} {error : SimulatorError}
    (offence : simulator.FirstOffence qubits error) : ¬simulator.Usable qubits := by
  intro usable
  cases offence with
  | repeated split _ again =>
      have distinct := usable.distinct
      rw [split, List.nodup_append] at distinct
      exact distinct.2.2 _ again _ List.mem_cons_self rfl
  | missing split _ unknown =>
      refine usable.allocated _ ?_ unknown
      rw [split]
      exact List.mem_append_right _ List.mem_cons_self

/-- The search stops at the first offence among the operands seen and those to come. -/
theorem first_offence_of_error {seen qubits : List QubitId} {error : SimulatorError}
    (usable : simulator.Usable seen.reverse)
    (refused : simulator.slotsOf seen qubits = .error error) :
    simulator.FirstOffence (seen.reverse ++ qubits) error := by
  -- The operands seen come in reverse, and they and those to come make up the same list throughout.
  induction qubits generalizing seen with
  | nil => simp [slotsOf] at refused
  | cons qubit rest ih =>
      unfold slotsOf at refused
      by_cases again : qubit ∈ seen
      · rw [if_pos again, Except.error.injEq] at refused
        rw [← refused]
        exact .repeated rfl usable (List.mem_reverse.2 again)
      · rw [if_neg again] at refused
        cases found : simulator.allocation[qubit]? with
        | none =>
            rw [slotOf, found] at refused
            cases refused
            exact .missing rfl usable found
        | some slot =>
            have later : simulator.slotsOf (qubit :: seen) rest = .error error := by
              rw [slotOf, found] at refused
              cases read : simulator.slotsOf (qubit :: seen) rest with
              | error other =>
                  rw [read] at refused
                  exact refused
              | ok slots =>
                  rw [read] at refused
                  cases refused
            have stillUsable : simulator.Usable (qubit :: seen).reverse := by
              rw [List.reverse_cons]
              apply usable.concat (mt List.mem_reverse.1 again)
              rw [found]
              exact Option.some_ne_none slot
            have offence := ih stillUsable later
            rw [List.reverse_cons, List.append_assoc] at offence
            exact offence

theorem slots_of_append_error {seen earlier rest : List QubitId} {error : SimulatorError}
    (usable : simulator.Usable earlier) (fresh : List.Disjoint earlier seen)
    (refused : simulator.slotsOf (earlier.reverse ++ seen) rest = .error error) :
    simulator.slotsOf seen (earlier ++ rest) = .error error := by
  induction earlier generalizing seen with
  | nil => exact refused
  | cons qubit others ih =>
      obtain ⟨notLater, distinct⟩ := List.nodup_cons.1 usable.distinct
      have known := usable.allocated qubit List.mem_cons_self
      obtain ⟨slot, found⟩ := Option.ne_none_iff_exists'.1 known
      have later : simulator.slotsOf (qubit :: seen) (others ++ rest) = .error error := by
        apply ih
        · exact ⟨distinct, fun other member =>
            usable.allocated other (List.mem_cons_of_mem qubit member)⟩
        · rw [List.disjoint_cons_right]
          exact ⟨notLater, List.disjoint_of_disjoint_cons_left fresh⟩
        · rw [List.reverse_cons, List.append_assoc] at refused
          exact refused
      rw [List.cons_append, slotsOf, if_neg (fresh List.mem_cons_self), slotOf, found, later]
      rfl

theorem slots_of_eq_error_iff (qubits : List QubitId) (error : SimulatorError) :
    simulator.slotsOf [] qubits = .error error ↔ simulator.FirstOffence qubits error := by
  constructor
  · exact first_offence_of_error ⟨List.nodup_nil, fun _ member => absurd member List.not_mem_nil⟩
  · intro offence
    cases offence with
    | repeated split usable again =>
        rw [split]
        apply slots_of_append_error usable (List.disjoint_nil_right _)
        rw [List.append_nil, slotsOf, if_pos (List.mem_reverse.2 again)]
    | @missing earlier later qubit split usable unknown =>
        have fresh : qubit ∉ earlier := fun member => usable.allocated qubit member unknown
        rw [split]
        apply slots_of_append_error usable (List.disjoint_nil_right _)
        rw [List.append_nil, slotsOf, if_neg (mt List.mem_reverse.1 fresh), slotOf, unknown]
        rfl

theorem Operands.usable {qubits : List QubitId} {slots : List Nat}
    (found : simulator.Operands qubits slots) : simulator.Usable qubits := by
  refine ⟨found.1, fun qubit member unknown => ?_⟩
  have source : simulator.allocation[qubit]? ∈ slots.map some := by
    rw [← found.2]
    exact List.mem_map_of_mem member
  rw [unknown] at source
  simp at source

theorem offends_iff (qubits : List QubitId) :
    (∃ error, simulator.FirstOffence qubits error) ↔ ¬simulator.Usable qubits := by
  constructor
  · rintro ⟨error, offence⟩
    exact offence.not_usable
  · intro unusable
    cases read : simulator.slotsOf [] qubits with
    | error error => exact ⟨error, (slots_of_eq_error_iff qubits error).1 read⟩
    | ok slots => exact absurd ((slots_of_operands simulator qubits slots).1 read).usable unusable

/-! ### Calls that are refused -/

/-- The call fails on these grounds alone, and leaves the simulator as it was when it does. -/
def RefusedOn {α : Type} (call : Action R α) (simulator : Simulator R)
    (grounds : SimulatorError → Prop) : Prop :=
  ∀ stop after, call simulator = .error stop after ↔
    ∃ error, grounds error ∧ stop = .refused error ∧ after = simulator

section RefusedOn

variable {α : Type} {call : Action R α} {grounds : SimulatorError → Prop}

theorem refused_on_of_error {error : SimulatorError}
    (answer : call simulator = .error (.refused error) simulator)
    (only : ∀ other, grounds other ↔ other = error) : RefusedOn call simulator grounds := by
  intro stop after
  rw [answer, EStateM.Result.error.injEq]
  constructor
  · rintro ⟨stops, leaves⟩
    exact ⟨error, (only error).2 rfl, stops.symm, leaves.symm⟩
  · rintro ⟨other, ground, stops, leaves⟩
    rw [stops, leaves, (only other).1 ground]
    exact ⟨rfl, rfl⟩

theorem refused_on_of_ok {value : α} {after : Simulator R}
    (answer : call simulator = .ok value after) (nothing : ∀ error, ¬grounds error) :
    RefusedOn call simulator grounds := by
  intro stop other
  rw [answer]
  constructor
  · intro absurdity
    cases absurdity
  · rintro ⟨error, ground, _⟩
    exact absurd ground (nothing error)

theorem refused_on_of_offence {qubits : List QubitId} {error : SimulatorError}
    (read : simulator.slotsOf [] qubits = .error error)
    (answer : call simulator = .error (.refused error) simulator) :
    RefusedOn call simulator (simulator.FirstOffence qubits) := by
  apply refused_on_of_error answer
  intro other
  rw [← slots_of_eq_error_iff, read, Except.error.injEq]
  exact eq_comm

theorem refused_on_of_operands {qubits : List QubitId} {slots : List Nat} {value : α}
    {after : Simulator R} (found : simulator.Operands qubits slots)
    (answer : call simulator = .ok value after) :
    RefusedOn call simulator (simulator.FirstOffence qubits) :=
  refused_on_of_ok answer fun _ offence => offence.not_usable found.usable

end RefusedOn

variable [Scalar R]

theorem alloc_refused_on (sound : simulator.Sound) (qubit : QubitId) (dirty : Bool) :
    RefusedOn (alloc qubit dirty) simulator fun error =>
      simulator.allocation[qubit]? ≠ none ∧ error = .alreadyAllocated qubit ∨
        simulator.allocation[qubit]? = none ∧ ¬simulator.OffersSlot dirty ∧
          error = .limitExceeded simulator.maxQubits := by
  cases known : simulator.allocation[qubit]? with
  | some slot => exact refused_on_of_error (alloc_known known dirty) (by simp)
  | none =>
      by_cases offers : simulator.OffersSlot dirty
      · by_cases parked : dirty = true ∧ simulator.parkedSlots ≠ []
        · obtain ⟨isDirty, some⟩ := parked
          obtain ⟨slot, rest, parked⟩ := List.exists_cons_of_ne_nil some
          rw [isDirty] at offers ⊢
          exact refused_on_of_ok (alloc_unparked known parked) (by simp [offers])
        · have unparked : dirty = true → simulator.parkedSlots = [] := fun isDirty => by
            by_contra some
            exact parked ⟨isDirty, some⟩
          obtain ⟨slot, rest, next, takes⟩ := takes_of_offers unparked offers
          obtain ⟨_, _, _, _, answer⟩ := alloc_taking sound known unparked offers takes
          exact refused_on_of_ok answer (by simp [offers])
      · exact refused_on_of_error (alloc_without_slot known offers) (by simp [offers])

theorem free_refused_on (sound : simulator.Sound) (qubit : QubitId) (dirty : Bool) :
    RefusedOn (free qubit dirty) simulator fun error =>
      simulator.allocation[qubit]? = none ∧ error = .notAllocated qubit := by
  have outcome := free_outcome_of_sound sound qubit dirty
  generalize answer : free qubit dirty simulator = result at outcome
  cases outcome with
  | refused unknown => exact refused_on_of_error answer (by simp [unknown])
  | parked found _ => exact refused_on_of_ok answer (by simp [found])
  | cleaned found _ _ _ _ _ _ => exact refused_on_of_ok answer (by simp [found])

theorem measure_refused_on (sound : simulator.Sound) (qubit : QubitId) :
    RefusedOn (measure qubit) simulator fun error =>
      simulator.allocation[qubit]? = none ∧ error = .notAllocated qubit := by
  have outcome := measure_outcome_of_sound sound qubit
  generalize answer : measure qubit simulator = result at outcome
  cases outcome with
  | refused unknown => exact refused_on_of_error answer (by simp [unknown])
  | measured found _ _ _ => exact refused_on_of_ok answer (by simp [found])

theorem gate_refused_on (sound : simulator.Sound) (gate : Gate R) (target : QubitId)
    (controls : List QubitId) :
    RefusedOn (applyGate gate target controls) simulator
      (simulator.FirstOffence (target :: controls)) := by
  have answer := of_unlimited (apply_gate_ignores_limit gate target controls) simulator
  have outcome := gate_outcome sound.unlimited gate target controls
  generalize applyGate gate target controls (simulator.underLimit width) = result
    at answer outcome
  cases outcome with
  | refused read =>
      rw [slots_of_under_limit] at read
      exact refused_on_of_offence read answer
  | skipped found _ => exact refused_on_of_operands found answer
  | applied found _ _ => exact refused_on_of_operands found answer

theorem dump_refused_on (sound : simulator.Sound) (qubits : List QubitId) :
    RefusedOn (takeDump qubits) simulator (simulator.FirstOffence qubits) := by
  have answer := of_unlimited (take_dump_ignores_limit qubits) simulator
  have outcome := dump_outcome sound.unlimited qubits
  generalize takeDump qubits (simulator.underLimit width) = result at answer outcome
  cases outcome with
  | refused read =>
      rw [slots_of_under_limit] at read
      exact refused_on_of_offence read answer
  | empty noQubits =>
      have found : simulator.Operands qubits [] := by
        rw [noQubits]
        exact ⟨List.nodup_nil, rfl⟩
      exact refused_on_of_operands found answer
  | recorded found _ => exact refused_on_of_operands found answer

/-! ### Plugins that give up -/

/-- The plugin answers what it is handed by giving up, and whatever it made of that is dropped: the
partitions of its targets and live controls stay joined, with the state that joining gave them. -/
inductive GivesUp (plugin : Plugin R) (targets : List QubitId) (arguments : String)
    (inverse : Bool) (controls : List QubitId) (simulator : Simulator R) :
    Stop → Simulator R → Prop where
  | dropped {first place : Nat} {rest controlSlots live : List Nat} {merged : Arena R}
      {partition : Partition R} {call : PluginCall R} {left : SparseState R} {stop : Stop}
      (found : simulator.Operands (targets ++ controls) (first :: rest ++ controlSlots))
      (count : (first :: rest).length = targets.length)
      (matters : Live simulator controlSlots live)
      (gathers : Arena.Gathers simulator.arena merged first (rest ++ live) place partition)
      (hands : call = handed (partition.state.permute
        (Layout.permutation (Layout.swaps (first :: rest ++ live)))) targets.length live.length
        arguments inverse)
      (answer : plugin.run call = (left, .error stop)) :
      GivesUp plugin targets arguments inverse controls simulator stop
        { simulator with arena := merged }

omit [Scalar R] in
theorem Live.limited {controls live : List Nat} {limit : Nat} :
    Live (simulator.underLimit limit) controls live ↔ Live simulator controls live :=
  ⟨fun matters => ⟨matters.undecided, matters.kept⟩,
    fun matters => ⟨matters.undecided, matters.kept⟩⟩

theorem plugin_fails_iff (sound : simulator.Sound) (plugin : Plugin R) (targets : List QubitId)
    (arguments : String) (inverse : Bool) (controls : List QubitId) (stop : Stop)
    (after : Simulator R) :
    applyPlugin plugin targets arguments inverse controls simulator = .error stop after ↔
      (∃ error, simulator.FirstOffence (targets ++ controls) error ∧ stop = .refused error ∧
        after = simulator) ∨
      GivesUp plugin targets arguments inverse controls simulator stop after := by
  have unlimited := of_unlimited
    (apply_plugin_ignores_limit plugin targets arguments inverse controls) simulator
  constructor
  · intro stopped
    have outcome := plugin_outcome sound.unlimited plugin targets arguments inverse controls
    rw [stopped] at unlimited
    generalize applyPlugin plugin targets arguments inverse controls
      (simulator.underLimit width) = result at unlimited outcome
    cases outcome with
    | refused read =>
        rw [slots_of_under_limit, slots_of_eq_error_iff] at read
        rw [resultUnder, EStateM.Result.error.injEq] at unlimited
        exact Or.inl ⟨_, read, unlimited⟩
    | skipped _ _ _ => cases unlimited
    | idle _ => cases unlimited
    | @ran first place rest controlSlots live merged partition sigma call found count matters
        gathers layout hands =>
        right
        rcases answer : plugin.run call with ⟨left, gaveUp | ⟨⟩⟩
        · rw [answer, answered, resultUnder, EStateM.Result.error.injEq] at unlimited
          rw [unlimited.1, unlimited.2]
          rw [layout] at hands
          exact .dropped found count (Live.limited.1 matters) gathers hands answer
        · rw [answer] at unlimited
          cases unlimited
  · rintro (⟨error, offence, stops, same⟩ | gaveUp)
    · have read := (slots_of_eq_error_iff _ error).2 offence
      rw [stops, same, applyPlugin, bind_of_error (operands_of_refused read)]
    · cases gaveUp with
      | dropped found count matters gathers hands answer =>
          rw [apply_plugin_eq sound.unlimited found count (Live.limited.2 matters) gathers rfl
            hands plugin, answer] at unlimited
          exact unlimited

/-! ### How every call fails -/

/-- However a run went, the calls fail on these grounds alone and then change nothing, except that a
plugin which gives up leaves its operands in one partition. -/
theorem failures_determined (arises : simulator.Arises) :
    (∀ qubit dirty, RefusedOn (alloc qubit dirty) simulator fun error =>
      simulator.allocation[qubit]? ≠ none ∧ error = .alreadyAllocated qubit ∨
        simulator.allocation[qubit]? = none ∧ ¬simulator.OffersSlot dirty ∧
          error = .limitExceeded simulator.maxQubits) ∧
    (∀ qubit dirty, RefusedOn (free qubit dirty) simulator fun error =>
      simulator.allocation[qubit]? = none ∧ error = .notAllocated qubit) ∧
    (∀ qubit, RefusedOn (measure qubit) simulator fun error =>
      simulator.allocation[qubit]? = none ∧ error = .notAllocated qubit) ∧
    (∀ gate target controls, RefusedOn (applyGate gate target controls) simulator
      (simulator.FirstOffence (target :: controls))) ∧
    (∀ qubits, RefusedOn (takeDump qubits) simulator (simulator.FirstOffence qubits)) ∧
    (∀ plugin targets arguments inverse controls stop after,
      applyPlugin plugin targets arguments inverse controls simulator = .error stop after ↔
        (∃ error, simulator.FirstOffence (targets ++ controls) error ∧ stop = .refused error ∧
          after = simulator) ∨
        GivesUp plugin targets arguments inverse controls simulator stop after) ∧
    (∀ qubits, (∃ error, simulator.FirstOffence qubits error) ↔ ¬simulator.Usable qubits) := by
  have sound := arises_sound arises
  exact ⟨alloc_refused_on sound, free_refused_on sound, measure_refused_on sound,
    gate_refused_on sound, dump_refused_on sound, plugin_fails_iff sound, offends_iff⟩

/-- Two qubits that are one more than the limit, which was lowered after they were allocated. -/
def crowded : Simulator Float :=
  (leaves ((Operation.alloc ⟨1⟩ false).perform
    (leaves ((Operation.alloc ⟨0⟩ false).perform (ofSeed width 7))))).withMaxQubits 1

theorem crowded_arises : crowded.Arises :=
  .limited (.performed (.performed
    (.seeded (.started (fun _ => none) "plugins" "dumps" 7) 7) _) _) 1

def clearing : Plugin Float where
  name := "clearing"
  run _ := Plugin.fail "clearing" "unwilling" (.ofAmplitudes .empty)

theorem crowded_failures :
    alloc ⟨2⟩ true crowded = .error (.refused (.limitExceeded 1)) crowded ∧
      applyGate .x ⟨0⟩ [⟨1⟩, ⟨0⟩, ⟨2⟩] crowded =
        .error (.refused (.duplicateQubit ⟨0⟩)) crowded ∧
      takeDump [⟨2⟩, ⟨0⟩, ⟨0⟩] crowded = .error (.refused (.notAllocated ⟨2⟩)) crowded ∧
      ∃ merged, applyPlugin clearing [⟨0⟩, ⟨1⟩] "" false [] crowded =
        .error (.refused (.pluginFailed "clearing" "unwilling"))
          { crowded with arena := merged } := by
  obtain ⟨allocs, _, _, gates, dumps, plugins, _⟩ := failures_determined crowded_arises
  have both : crowded.Usable [⟨0⟩, ⟨1⟩] := ⟨by decide, by
    intro qubit member
    rcases List.mem_cons.1 member with here | there
    · rw [here]
      decide +kernel
    · rw [List.mem_singleton.1 there]
      decide +kernel⟩
  have nobody : crowded.Usable [] :=
    ⟨List.nodup_nil, fun _ member => absurd member List.not_mem_nil⟩
  have found : crowded.Operands ([⟨0⟩, ⟨1⟩] ++ []) ([0, 1] ++ []) := ⟨by decide, by rfl⟩
  have matters : Live crowded [] [] := ⟨fun _ member => absurd member List.not_mem_nil, rfl⟩
  obtain ⟨_, merged, _, gathers⟩ :=
    gather_allocated (arises_sound crowded_arises).unlimited 0 ([1] ++ [])
      fun _ member => found.allocated (by simpa using member)
  refine ⟨?_, ?_, ?_, merged, ?_⟩
  · rw [allocs]
    refine ⟨_, Or.inr ⟨by decide +kernel, ?_, rfl⟩, rfl, rfl⟩
    rintro (⟨_, parked⟩ | free | room)
    · exact parked rfl
    · exact free rfl
    · exact absurd room (by decide +kernel)
  · rw [gates]
    exact ⟨_, .repeated rfl both List.mem_cons_self, rfl, rfl⟩
  · rw [dumps]
    exact ⟨_, .missing rfl nobody (by decide +kernel), rfl, rfl⟩
  · rw [plugins]
    exact Or.inr (.dropped found rfl matters gathers rfl rfl)

end Simulator

end SparseQuantum
