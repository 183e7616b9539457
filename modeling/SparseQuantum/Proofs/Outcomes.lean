import Mathlib
import SparseQuantum.Proofs.Relocation
import SparseQuantum.Proofs.SlotTable
import SparseQuantum.Simulator.Lifecycle

/-!
# What a call does

Each call on a well-formed simulator ends in one of a few ways, and this module lists them: what
must have held before, how the call answers, and the simulator it leaves. No fault is among them.
All statements about runs are proved from these lists and not from the calls themselves.
-/

namespace SparseQuantum

set_option autoImplicit false

variable {R : Type}

namespace Action

variable {α β : Type}

theorem bind_get (next : Simulator R → Action R β) (before : Simulator R) :
    (get >>= next) before = next before before := rfl

theorem bind_or_refuse (value : α) (next : α → Action R β) (before : Simulator R) :
    (orRefuse (.ok value) >>= next) before = next value before := rfl

theorem bind_or_fault (value : α) (next : α → Action R β) (before : Simulator R) :
    (orFault (.ok value) >>= next) before = next value before := rfl

theorem bind_of_ok {action : Action R α} {next : α → Action R β} {before after : Simulator R}
    {value : α} (done : action before = .ok value after) :
    (action >>= next) before = next value after := by
  change EStateM.bind action next before = _
  rw [EStateM.bind, done]

theorem bind_of_error {action : Action R α} {next : α → Action R β} {before after : Simulator R}
    {stop : Stop} (stopped : action before = .error stop after) :
    (action >>= next) before = .error stop after := by
  change EStateM.bind action next before = _
  rw [EStateM.bind, stopped]

theorem state_at_eq {before : Simulator R} {place : Nat} {partition : Partition R}
    (found : before.arena.partitions[place]? = some partition) :
    stateAt place before = .ok partition.state before := by
  have read : before.arena.partition place = .ok partition := by rw [Arena.partition, found]
  rw [stateAt, bind_get, read]
  rfl

theorem set_state_at_eq {before : Simulator R} {place : Nat} {partition : Partition R}
    (found : before.arena.partitions[place]? = some partition) (state : SparseState R) :
    setStateAt place state before =
      .ok () { before with arena := before.arena.withState place state } := by
  rw [setStateAt, bind_get, Arena.set_state_eq found]
  rfl

theorem merge_eq [Scalar R] {before : Simulator R} {first place : Nat} {others : List Nat}
    {merged : Arena R}
    (result : before.arena.merge first others = .ok (place, merged)) :
    merge first others before = .ok place { before with arena := merged } := by
  rw [merge, bind_get, result]
  rfl

end Action

namespace Simulator

variable [Scalar R]

/-! ### Allocating -/

/-- The slot that a clean allocation takes, with the free slots and the next slot it leaves. -/
inductive Takes (before : Simulator R) : Nat → List Nat → Nat → Prop where
  | recycled {slot : Nat} {rest : List Nat} (free : before.freeSlots = slot :: rest) :
      Takes before slot rest before.nextSlot
  | issued (noneFree : before.freeSlots = []) (room : before.nextSlot < before.maxQubits) :
      Takes before before.nextSlot [] (before.nextSlot + 1)

inductive AllocOutcome (qubit : QubitId) (dirty : Bool) (before : Simulator R) :
    EStateM.Result Stop (Simulator R) Unit → Prop where
  | known (known : before.allocation.contains qubit = true) :
      AllocOutcome qubit dirty before (.error (.refused (.alreadyAllocated qubit)) before)
  | unparked {slot : Nat} {rest : List Nat} (unknown : before.allocation[qubit]? = none)
      (isDirty : dirty = true) (parked : before.parkedSlots = slot :: rest) :
      AllocOutcome qubit dirty before
        (.ok () { before with
          parkedSlots := rest
          allocation := before.allocation.insert qubit slot })
  | exhausted (unknown : before.allocation[qubit]? = none)
      (unparked : dirty = true → before.parkedSlots = []) (noneFree : before.freeSlots = [])
      (full : before.nextSlot = before.maxQubits) :
      AllocOutcome qubit dirty before
        (.error (.refused (.limitExceeded before.maxQubits)) before)
  | fresh {slot next place : Nat} {rest : List Nat} {grown : Arena R}
      (unknown : before.allocation[qubit]? = none)
      (unparked : dirty = true → before.parkedSlots = []) (takes : Takes before slot rest next)
      (inserts : Arena.Inserts before.arena grown slot place) (arena : grown.WellFormed) :
      AllocOutcome qubit dirty before
        (.ok () { before with
          freeSlots := rest
          nextSlot := next
          arena := grown
          allocation := before.allocation.insert qubit slot })

theorem Takes.not_owned {before : Simulator R} (wellFormed : before.WellFormed) {slot next : Nat}
    {rest : List Nat} (takes : Takes before slot rest next) : ¬before.arena.Owns slot := by
  cases takes with
  | recycled free =>
      exact wellFormed.not_owned_of_free (by rw [free]; exact List.mem_cons_self)
  | issued => exact wellFormed.not_owned_of_fresh (Nat.le_refl _)

theorem alloc_clean_outcome {before : Simulator R} (wellFormed : before.WellFormed)
    {qubit : QubitId} {dirty : Bool} (unknown : before.allocation[qubit]? = none)
    (unparked : dirty = true → before.parkedSlots = []) :
    AllocOutcome qubit dirty before (allocClean qubit before) := by
  -- Once a slot is taken, the arena cannot refuse it.
  have taken {slot next : Nat} {rest : List Nat} (takes : Takes before slot rest next)
      (result : takeSlot before =
        .ok slot { before with freeSlots := rest, nextSlot := next }) :
      AllocOutcome qubit dirty before (allocClean qubit before) := by
    obtain ⟨place, grown, inserted, arena, inserts⟩ :=
      Arena.insert_singleton_spec wellFormed.arena (takes.not_owned wellFormed)
    have answer : allocClean qubit before = .ok () { before with
        freeSlots := rest
        nextSlot := next
        arena := grown
        allocation := before.allocation.insert qubit slot } := by
      rw [allocClean, Action.bind_of_ok result, Action.bind_get, inserted]
      rfl
    rw [answer]
    exact .fresh unknown unparked takes inserts arena
  cases free : before.freeSlots with
  | cons slot rest =>
      apply taken (.recycled free)
      rw [takeSlot, Action.bind_get, free]
      rfl
  | nil =>
      by_cases room : before.nextSlot < before.maxQubits
      · apply taken (.issued free room)
        rw [takeSlot, Action.bind_get, free]
        change (if before.nextSlot < before.maxQubits then _ else _ : Action R Nat) before = _
        rw [if_pos room, ← free]
        rfl
      · have result : takeSlot before =
            .error (.refused (.limitExceeded before.maxQubits)) before := by
          rw [takeSlot, Action.bind_get, free]
          change (if before.nextSlot < before.maxQubits then _ else _ : Action R Nat) before = _
          rw [if_neg room]
          rfl
        rw [allocClean, Action.bind_of_error result]
        exact .exhausted unknown unparked free (by have := wellFormed.next_le; omega)

theorem alloc_outcome {before : Simulator R} (wellFormed : before.WellFormed) (qubit : QubitId)
    (dirty : Bool) : AllocOutcome qubit dirty before (alloc qubit dirty before) := by
  rw [alloc, Action.bind_get]
  by_cases known : before.allocation.contains qubit = true
  · rw [if_pos known]
    exact .known known
  · rw [if_neg known]
    have unknown : before.allocation[qubit]? = none :=
      Std.ExtTreeMap.getElem?_eq_none_of_contains_eq_false (Bool.eq_false_iff.2 known)
    cases dirty with
    | false => exact alloc_clean_outcome wellFormed unknown (fun absurdity => by cases absurdity)
    | true =>
        rw [if_pos rfl]
        cases parked : before.parkedSlots with
        | nil => exact alloc_clean_outcome wellFormed unknown (fun _ => parked)
        | cons slot rest => exact .unparked unknown rfl parked

/-! ### Freeing -/

inductive FreeOutcome (qubit : QubitId) (dirty : Bool) (before : Simulator R) :
    EStateM.Result Stop (Simulator R) Unit → Prop where
  | refused (unknown : before.allocation[qubit]? = none) :
      FreeOutcome qubit dirty before (.error (.refused (.notAllocated qubit)) before)
  | parked {slot : Nat} (found : before.allocation[qubit]? = some slot) (isDirty : dirty = true) :
      FreeOutcome qubit dirty before
        (.ok () { before with
          allocation := before.allocation.erase qubit
          parkedSlots := slot :: before.parkedSlots })
  | cleaned {slot place : Nat} {partition : Partition R} {bit : Bool} {draws : Draws}
      {left : Arena R} (found : before.allocation[qubit]? = some slot) (isClean : dirty = false)
      (owner : before.arena.owner? slot = some place)
      (stands : before.arena.partitions[place]? = some partition)
      (sampled : partition.state.sample slot before.draws = (bit, draws))
      (detaches : Arena.Detaches
        (before.arena.withState place (partition.state.collapse slot bit true)) left slot place
        { partition with state := partition.state.collapse slot bit true })
      (arena : left.WellFormed) :
      FreeOutcome qubit dirty before
        (.ok () { before with
          allocation := before.allocation.erase qubit
          arena := left
          draws := draws
          freeSlots := slot :: before.freeSlots })

theorem reset_eq {before : Simulator R} {slot place : Nat} {partition : Partition R} {bit : Bool}
    {draws : Draws} {left : Arena R} (inside : slot < width)
    (owner : before.arena.owner? slot = some place)
    (stands : before.arena.partitions[place]? = some partition)
    (sampled : partition.state.sample slot before.draws = (bit, draws))
    (detached :
      (before.arena.withState place (partition.state.collapse slot bit true)).detach slot =
        .ok left) :
    reset slot before = .ok () { before with arena := left, draws := draws } := by
  have measured : partition.state.measureAndReset? slot before.draws =
      .ok (partition.state.collapse slot bit true, draws) := by
    rw [SparseState.measureAndReset?, SparseState.guarded_ok, SparseState.measureAndReset, sampled]
    intro position member
    rw [List.mem_singleton.1 member]
    exact inside
  rw [reset, Action.bind_get, owner]
  change (Action.stateAt place >>= _) before = _
  rw [Action.bind_of_ok (Action.state_at_eq stands), Action.bind_get, measured]
  change (Action.setStateAt place (partition.state.collapse slot bit true) >>= _) before = _
  rw [Action.bind_of_ok (Action.set_state_at_eq stands _), Action.bind_get, detached]
  rfl

theorem free_outcome {before : Simulator R} (wellFormed : before.WellFormed) (qubit : QubitId)
    (dirty : Bool) : FreeOutcome qubit dirty before (free qubit dirty before) := by
  cases found : before.allocation[qubit]? with
  | none =>
      rw [free, Action.bind_get, slotOf, found]
      exact .refused found
  | some slot =>
      cases dirty with
      | true =>
          rw [free, Action.bind_get, slotOf, found]
          exact .parked found rfl
      | false =>
          have allocated : before.Allocated slot := ⟨qubit, found⟩
          obtain ⟨place, owner⟩ := wellFormed.owned_of_allocated allocated
          obtain ⟨partition, stands, _, used⟩ := wellFormed.arena.partition_of_owner owner
          rcases sampled : partition.state.sample slot before.draws with ⟨bit, draws⟩
          have clean := Arena.with_state_well_formed wellFormed.arena used
            (partition.state.collapse slot bit true)
          obtain ⟨left, owned, detached, detaches⟩ := Arena.detach_spec clean owner
          have same :
              owned = { partition with state := partition.state.collapse slot bit true } := by
            have here := detaches.found
            rw [Arena.partition_with_state, if_pos rfl, stands] at here
            exact (Option.some.inj here).symm
          rw [same] at detaches
          let erased : Simulator R :=
            { before with allocation := before.allocation.erase qubit }
          have cleared : reset slot erased = .ok () { erased with arena := left, draws := draws } :=
            @reset_eq R _ erased slot place partition bit draws left
              (wellFormed.allocated_lt_width allocated) owner stands sampled detached
          have answer : free qubit false before = .ok () { before with
              allocation := before.allocation.erase qubit
              arena := left
              draws := draws
              freeSlots := slot :: before.freeSlots } := by
            rw [free, Action.bind_get, slotOf, found]
            change (reset slot >>= _) erased = _
            rw [Action.bind_of_ok cleared]
            rfl
          rw [answer]
          exact .cleaned found rfl owner stands sampled detaches
            (Arena.detaches_well_formed clean detaches)

/-! ### Gates and measurements -/

theorem gather_allocated {before : Simulator R} (wellFormed : before.WellFormed) (first : Nat)
    (others : List Nat) (allocated : ∀ slot ∈ first :: others, before.Allocated slot) :
    ∃ place merged partition,
      Arena.Gathers before.arena merged first others place partition :=
  Arena.merge_gathers wellFormed.arena first others
    fun slot member => wellFormed.owned_of_allocated (allocated slot member)

omit [Scalar R] in
theorem operands_of_refused {before : Simulator R} {qubits : List QubitId}
    {error : SimulatorError} (refused : before.slotsOf [] qubits = .error error) :
    operands qubits before = .error (.refused error) before := by
  rw [operands, Action.bind_get, refused]
  rfl

omit [Scalar R] in
theorem operands_of_found {before : Simulator R} {qubits : List QubitId} {slots : List Nat}
    (found : before.slotsOf [] qubits = .ok slots) :
    operands qubits before = .ok slots before := by
  rw [operands, Action.bind_get, found]
  rfl

/-- The slots of controls that matter: those not known to be 1, where none is known to be 0. -/
structure Live (before : Simulator R) (controls live : List Nat) : Prop where
  undecided : ∀ slot ∈ controls, before.arena.known? slot ≠ some false
  kept : live = controls.filter fun slot => before.arena.known? slot ≠ some true

inductive GateOutcome (gate : Gate R) (target : QubitId) (controls : List QubitId)
    (before : Simulator R) : EStateM.Result Stop (Simulator R) Unit → Prop where
  | refused {error : SimulatorError}
      (refused : before.slotsOf [] (target :: controls) = .error error) :
      GateOutcome gate target controls before (.error (.refused error) before)
  | skipped {slot : Nat} {controlSlots : List Nat}
      (found : before.Operands (target :: controls) (slot :: controlSlots))
      (decided : ∃ control ∈ controlSlots, before.arena.known? control = some false) :
      GateOutcome gate target controls before (.ok () before)
  | applied {slot place : Nat} {controlSlots live : List Nat} {merged : Arena R}
      {partition : Partition R}
      (found : before.Operands (target :: controls) (slot :: controlSlots))
      (matters : Live before controlSlots live)
      (gathers : Arena.Gathers before.arena merged slot live place partition) :
      GateOutcome gate target controls before
        (.ok () { before with
          arena := merged.withState place (partition.state.applyGate gate slot live) })

theorem live_outcome {before : Simulator R} (wellFormed : before.WellFormed)
    {controls : List Nat} (allocated : ∀ slot ∈ controls, before.Allocated slot) :
    ((∃ slot ∈ controls, before.arena.known? slot = some false) ∧
      before.liveControls controls = .ok none) ∨
    ∃ live, Live before controls live ∧ before.liveControls controls = .ok (some live) := by
  rw [live_controls_eq wellFormed allocated]
  by_cases decided : ∃ slot ∈ controls, before.arena.known? slot = some false
  · rw [if_pos decided]
    exact Or.inl ⟨decided, rfl⟩
  · rw [if_neg decided]
    exact Or.inr ⟨_, ⟨fun slot member zero => decided ⟨slot, member, zero⟩, rfl⟩, rfl⟩

omit [Scalar R] in
theorem Live.subset {before : Simulator R} {controls live : List Nat}
    (matters : Live before controls live) : live ⊆ controls := by
  rw [matters.kept]
  exact List.filter_subset_self controls

omit [Scalar R] in
theorem Live.sublist {before : Simulator R} {controls live : List Nat}
    (matters : Live before controls live) (targets : List Nat) :
    (targets ++ live).Sublist (targets ++ controls) := by
  rw [matters.kept]
  exact List.filter_sublist.append_left targets

section Operands

variable {before : Simulator R} {qubits : List QubitId} {targets controls live : List Nat}
  (found : before.Operands qubits (targets ++ controls)) (matters : Live before controls live)

include found matters

omit [Scalar R] in
theorem Operands.live_allocated {slot : Nat} (member : slot ∈ targets ++ live) :
    before.Allocated slot :=
  found.allocated ((matters.sublist targets).subset member)

theorem Operands.live_lt_width (wellFormed : before.WellFormed) :
    ∀ slot ∈ targets ++ live, slot < width :=
  fun _ member => wellFormed.allocated_lt_width (found.live_allocated matters member)

theorem Operands.live_distinct (wellFormed : before.WellFormed) : (targets ++ live).Nodup :=
  (found.distinct wellFormed).sublist (matters.sublist targets)

end Operands

theorem gate_outcome {before : Simulator R} (wellFormed : before.WellFormed) (gate : Gate R)
    (target : QubitId) (controls : List QubitId) :
    GateOutcome gate target controls before (applyGate gate target controls before) := by
  cases read : before.slotsOf [] (target :: controls) with
  | error error =>
      rw [applyGate, Action.bind_of_error (operands_of_refused read)]
      exact .refused read
  | ok slots =>
      have found := (slots_of_operands before (target :: controls) slots).1 read
      cases slots with
      | nil => exact absurd found.length (by simp)
      | cons slot controlSlots =>
          rcases live_outcome wellFormed
            (fun control member => found.allocated (List.mem_cons_of_mem slot member)) with
            ⟨decided, nothing⟩ | ⟨live, matters, needed⟩
          · have answer : applyGate gate target controls before = .ok () before := by
              rw [applyGate, Action.bind_of_ok (operands_of_found read)]
              change ((get : Action R (Simulator R)) >>= _) before = _
              rw [Action.bind_get, nothing]
              rfl
            rw [answer]
            exact .skipped found decided
          · have allocated : ∀ other ∈ slot :: live, before.Allocated other :=
              fun other member => found.allocated
                (List.cons_subset_cons slot matters.subset member)
            obtain ⟨place, merged, partition, gathers⟩ :=
              gather_allocated wellFormed slot live allocated
            have applied : partition.state.applyGate? gate slot live =
                .ok (partition.state.applyGate gate slot live) := by
              rw [SparseState.applyGate?, SparseState.guarded_ok]
              intro position member
              apply wellFormed.allocated_lt_width (allocated position _)
              rw [List.mem_cons]
              rcases List.mem_append.1 member with control | target
              · exact Or.inr control
              · exact Or.inl (List.mem_singleton.1 target)
            have answer : applyGate gate target controls before = .ok () { before with
                arena := merged.withState place (partition.state.applyGate gate slot live) } := by
              rw [applyGate, Action.bind_of_ok (operands_of_found read)]
              change ((get : Action R (Simulator R)) >>= _) before = _
              rw [Action.bind_get, needed]
              change (Action.merge slot live >>= _) before = _
              rw [Action.bind_of_ok (Action.merge_eq gathers.result),
                Action.bind_of_ok (Action.state_at_eq gathers.found), applied]
              change Action.setStateAt place _ { before with arena := merged } = _
              rw [Action.set_state_at_eq gathers.found]
            rw [answer]
            exact .applied found matters gathers

inductive MeasureOutcome (qubit : QubitId) (before : Simulator R) :
    EStateM.Result Stop (Simulator R) Bool → Prop where
  | refused (unknown : before.allocation[qubit]? = none) :
      MeasureOutcome qubit before (.error (.refused (.notAllocated qubit)) before)
  | measured {slot place : Nat} {partition : Partition R} {bit : Bool} {draws : Draws}
      (found : before.allocation[qubit]? = some slot)
      (owner : before.arena.owner? slot = some place)
      (stands : before.arena.partitions[place]? = some partition)
      (sampled : partition.state.sample slot before.draws = (bit, draws)) :
      MeasureOutcome qubit before
        (.ok bit { before with
          arena := before.arena.withState place (partition.state.collapse slot bit false)
          draws := draws
          bits := before.bits.insert qubit bit })

theorem measure_outcome {before : Simulator R} (wellFormed : before.WellFormed)
    (qubit : QubitId) : MeasureOutcome qubit before (measure qubit before) := by
  cases found : before.allocation[qubit]? with
  | none =>
      rw [measure, Action.bind_get, slotOf, found]
      exact .refused found
  | some slot =>
      have allocated : before.Allocated slot := ⟨qubit, found⟩
      obtain ⟨place, owner⟩ := wellFormed.owned_of_allocated allocated
      obtain ⟨partition, stands, _, used⟩ := wellFormed.arena.partition_of_owner owner
      rcases sampled : partition.state.sample slot before.draws with ⟨bit, draws⟩
      have measured : partition.state.measure? slot before.draws =
          .ok (bit, partition.state.collapse slot bit false, draws) := by
        rw [SparseState.measure?, SparseState.guarded_ok, SparseState.measure, sampled]
        intro position member
        rw [List.mem_singleton.1 member]
        exact wellFormed.allocated_lt_width allocated
      have answer : measure qubit before = .ok bit { before with
          arena := before.arena.withState place (partition.state.collapse slot bit false)
          draws := draws
          bits := before.bits.insert qubit bit } := by
        rw [measure, Action.bind_get, (slot_of_eq_ok_iff before qubit slot).2 found,
          Action.bind_or_refuse, Action.bind_get, owner]
        change (Action.stateAt place >>= _) before = _
        rw [Action.bind_of_ok (Action.state_at_eq stands), Action.bind_get, measured]
        change (Action.setStateAt place _ >>= _) before = _
        rw [Action.bind_of_ok (Action.set_state_at_eq stands _)]
        rfl
      rw [answer]
      exact .measured found owner stands sampled

/-! ### Plugins and dumps -/

def controlPlaces (targets controls : Nat) : List Nat := (List.range controls).map (targets + ·)

def handed (canonical : SparseState R) (targets controls : Nat) (arguments : String)
    (inverse : Bool) : PluginCall R :=
  ⟨targets, controls, arguments, inverse,
    .ofAmplitudes (.ofEntries (splitActive canonical (controlPlaces targets controls)).1)⟩

def rejoined (canonical left : SparseState R) (targets controls : Nat) : SparseState R :=
  canonical.replace (rejoin left (splitActive canonical (controlPlaces targets controls)).2)

def afterAnswer (canonical : SparseState R) (call : PluginCall R)
    (answer : SparseState R × Except Stop Unit) :
    Except Fault (SparseState R × PluginCall R × Except Stop Unit) :=
  match answer with
  | (left, outcome) =>
      match outcome with
      | .ok () => .ok (rejoined canonical left call.targets call.controls, call, outcome)
      | .error _ => .ok (canonical, call, outcome)

theorem run_plugin_eq (plugin : Plugin R) (canonical : SparseState R) {targets controls : Nat}
    (room : targets + controls ≤ width) (arguments : String) (inverse : Bool) :
    runPlugin plugin canonical targets controls arguments inverse =
      .ok (match plugin.run (handed canonical targets controls arguments inverse) with
        | (left, .ok ()) => (rejoined canonical left targets controls,
            handed canonical targets controls arguments inverse, .ok ())
        | (_, .error stop) => (canonical,
            handed canonical targets controls arguments inverse, .error stop)) := by
  have inside : ∀ position ∈ controlPlaces targets controls, position < width := by
    intro position member
    obtain ⟨control, below, same⟩ := List.mem_map.1 member
    have := List.mem_range.1 below
    omega
  rw [runPlugin]
  change ((canonical.guarded (controlPlaces targets controls)
    (splitActive canonical (controlPlaces targets controls))) >>= _) = _
  rw [SparseState.guarded_ok canonical inside]
  change afterAnswer canonical (handed canonical targets controls arguments inverse)
    (plugin.run (handed canonical targets controls arguments inverse)) = _
  rcases plugin.run (handed canonical targets controls arguments inverse) with ⟨left, _ | _⟩
  · rfl
  · rfl

/-- How a call ends once its plugin has answered what it was handed of a state, whose operands
`sigma` has brought to the front. -/
def answered (before : Simulator R) (merged : Arena R) (place : Nat) (state : SparseState R)
    (sigma : Equiv.Perm Nat) (call : PluginCall R) :
    SparseState R × Except Stop Unit → EStateM.Result Stop (Simulator R) (Option (PluginCall R))
  | (left, .ok ()) => .ok (some call) { before with
      arena := merged.withState place
        ((rejoined (state.permute sigma) left call.targets call.controls).permute sigma.symm) }
  | (_, .error stop) => .error stop { before with arena := merged }

def concluded (call : PluginCall R) (outcome : Except Stop Unit) :
    Action R (Option (PluginCall R)) :=
  match outcome with
  | .ok () => pure (some call)
  | .error stop => throw stop

theorem apply_plugin_eq {before : Simulator R} (wellFormed : before.WellFormed)
    {targets controls : List QubitId} {first place : Nat} {rest controlSlots live : List Nat}
    (found : before.Operands (targets ++ controls) (first :: rest ++ controlSlots))
    (count : (first :: rest).length = targets.length) (matters : Live before controlSlots live)
    {merged : Arena R} {partition : Partition R}
    (gathers : Arena.Gathers before.arena merged first (rest ++ live) place partition)
    {sigma : Equiv.Perm Nat}
    (layout : sigma = Layout.permutation (Layout.swaps (first :: rest ++ live)))
    {call : PluginCall R} {arguments : String} {inverse : Bool}
    (hands : call = handed (partition.state.permute sigma) targets.length live.length arguments
      inverse)
    (plugin : Plugin R) :
    applyPlugin plugin targets arguments inverse controls before =
      answered before merged place partition.state sigma call (plugin.run call) := by
  have distinct : (first :: rest ++ live).Nodup := found.live_distinct matters wellFormed
  have inside : ∀ slot ∈ first :: rest ++ live, slot < width :=
    found.live_lt_width matters wellFormed
  have room : targets.length + live.length ≤ width := by
    have bound := Layout.length_le_width distinct inside
    rw [List.length_append, count] at bound
    exact bound
  have read := (slots_of_operands before _ _).2 found
  have needed : before.liveControls controlSlots = .ok (some live) := by
    rw [live_controls_eq wellFormed
      (fun slot member => found.allocated (List.mem_append_right _ member)), if_neg, matters.kept]
    rintro ⟨slot, member, zero⟩
    exact matters.undecided slot member zero
  -- What the plugin answers decides only how the call goes on from here.
  have upTo (restored state : SparseState R) (outcome : Except Stop Unit) :
      runPlugin plugin (partition.state.permute sigma) targets.length live.length arguments
        inverse = .ok (state, call, outcome) →
      state.permute sigma.symm = restored →
      applyPlugin plugin targets arguments inverse controls before =
        concluded call outcome { before with arena := merged.withState place restored } := by
    intro ran same
    rw [applyPlugin, Action.bind_of_ok (operands_of_found read), Action.bind_get,
      List.take_left' count, List.drop_left' count, needed]
    change (Action.merge first (rest ++ live) >>= _) before = _
    rw [Action.bind_of_ok (Action.merge_eq gathers.result),
      Action.bind_of_ok (Action.state_at_eq gathers.found),
      Layout.canonicalize_eq distinct inside, Action.bind_or_fault, ← layout, ran,
      Action.bind_or_fault]
    change (Action.orFault (Layout.restore state (first :: rest ++ live)) >>= _) _ = _
    rw [Layout.restore_eq distinct inside, Action.bind_or_fault, ← layout, same]
    exact Action.bind_of_ok (Action.set_state_at_eq gathers.found restored)
  have ran := run_plugin_eq plugin (partition.state.permute sigma) room arguments inverse
  rw [← hands] at ran
  rcases answer : plugin.run call with ⟨left, stop | ⟨⟩⟩
  · rw [answer] at ran
    have same : (partition.state.permute sigma).permute sigma.symm = partition.state := by
      rw [layout]
      exact SparseState.permute_permute_symm
        (Layout.rearranges_permutation (Layout.swaps_bounded distinct inside)) partition.state
    rw [upTo partition.state _ _ ran same, Arena.with_state_self gathers.found]
    rfl
  · rw [answer] at ran
    rw [upTo _ _ _ ran rfl, answered, hands]
    rfl

inductive PluginOutcome (plugin : Plugin R) (targets : List QubitId) (arguments : String)
    (inverse : Bool) (controls : List QubitId) (before : Simulator R) :
    EStateM.Result Stop (Simulator R) (Option (PluginCall R)) → Prop where
  | refused {error : SimulatorError}
      (refused : before.slotsOf [] (targets ++ controls) = .error error) :
      PluginOutcome plugin targets arguments inverse controls before
        (.error (.refused error) before)
  | skipped {targetSlots controlSlots : List Nat}
      (found : before.Operands (targets ++ controls) (targetSlots ++ controlSlots))
      (count : targetSlots.length = targets.length)
      (decided : ∃ control ∈ controlSlots, before.arena.known? control = some false) :
      PluginOutcome plugin targets arguments inverse controls before (.ok none before)
  | idle (noTargets : targets = []) :
      PluginOutcome plugin targets arguments inverse controls before (.ok none before)
  | ran {first place : Nat} {rest controlSlots live : List Nat} {merged : Arena R}
      {partition : Partition R} {sigma : Equiv.Perm Nat} {call : PluginCall R}
      (found : before.Operands (targets ++ controls) (first :: rest ++ controlSlots))
      (count : (first :: rest).length = targets.length)
      (matters : Live before controlSlots live)
      (gathers : Arena.Gathers before.arena merged first (rest ++ live) place partition)
      (layout : sigma = Layout.permutation (Layout.swaps (first :: rest ++ live)))
      (hands : call = handed (partition.state.permute sigma) targets.length live.length arguments
        inverse) :
      PluginOutcome plugin targets arguments inverse controls before
        (answered before merged place partition.state sigma call (plugin.run call))

theorem plugin_outcome {before : Simulator R} (wellFormed : before.WellFormed)
    (plugin : Plugin R) (targets : List QubitId) (arguments : String) (inverse : Bool)
    (controls : List QubitId) :
    PluginOutcome plugin targets arguments inverse controls before
      (applyPlugin plugin targets arguments inverse controls before) := by
  cases read : before.slotsOf [] (targets ++ controls) with
  | error error =>
      rw [applyPlugin, Action.bind_of_error (operands_of_refused read)]
      exact .refused read
  | ok slots =>
      have found := (slots_of_operands before (targets ++ controls) slots).1 read
      have length := found.length
      rw [List.length_append] at length
      have count : (slots.take targets.length).length = targets.length := by
        rw [List.length_take]
        omega
      have parts := List.take_append_drop targets.length slots
      rcases live_outcome wellFormed (fun control member =>
        found.allocated (List.mem_of_mem_drop member)) with
        ⟨decided, nothing⟩ | ⟨live, matters, needed⟩
      · have answer : applyPlugin plugin targets arguments inverse controls before =
            .ok none before := by
          rw [applyPlugin, Action.bind_of_ok (operands_of_found read), Action.bind_get, nothing]
          rfl
        rw [answer]
        exact .skipped (by rw [parts]; exact found) count decided
      · cases targetSlots : slots.take targets.length with
        | nil =>
            have answer : applyPlugin plugin targets arguments inverse controls before =
                .ok none before := by
              rw [applyPlugin, Action.bind_of_ok (operands_of_found read), Action.bind_get, needed,
                targetSlots]
              rfl
            rw [answer]
            rw [targetSlots] at count
            exact .idle (List.eq_nil_of_length_eq_zero count.symm)
        | cons first rest =>
            rw [targetSlots] at count parts
            have foundParts : before.Operands (targets ++ controls)
                (first :: rest ++ slots.drop targets.length) := by
              rw [parts]
              exact found
            obtain ⟨place, merged, partition, gathers⟩ :=
              gather_allocated wellFormed first (rest ++ live)
                (fun _ member => foundParts.live_allocated matters member)
            rw [apply_plugin_eq wellFormed foundParts count matters gathers rfl rfl plugin]
            exact .ran foundParts count matters gathers rfl rfl

inductive DumpOutcome (qubits : List QubitId) (before : Simulator R) :
    EStateM.Result Stop (Simulator R) Nat → Prop where
  | refused {error : SimulatorError} (refused : before.slotsOf [] qubits = .error error) :
      DumpOutcome qubits before (.error (.refused error) before)
  | empty (noQubits : qubits = []) :
      DumpOutcome qubits before (.ok before.dumps.size { before with
        dumps := before.dumps.push (SparseState.ground.dump 0) })
  | recorded {first place : Nat} {rest : List Nat} {merged : Arena R} {partition : Partition R}
      (found : before.Operands qubits (first :: rest))
      (gathers : Arena.Gathers before.arena merged first rest place partition) :
      DumpOutcome qubits before (.ok before.dumps.size { before with
        arena := merged
        dumps := before.dumps.push ((partition.state.permute
          (Layout.permutation (Layout.swaps (first :: rest)))).dump (first :: rest).length) })

theorem dump_outcome {before : Simulator R} (wellFormed : before.WellFormed)
    (qubits : List QubitId) : DumpOutcome qubits before (takeDump qubits before) := by
  cases read : before.slotsOf [] qubits with
  | error error =>
      rw [takeDump, Action.bind_of_error (operands_of_refused read)]
      exact .refused read
  | ok slots =>
      have found := (slots_of_operands before qubits slots).1 read
      cases slots with
      | nil =>
          have answer : takeDump qubits before = .ok before.dumps.size { before with
              dumps := before.dumps.push (SparseState.ground.dump 0) } := by
            rw [takeDump, Action.bind_of_ok (operands_of_found read)]
            rfl
          rw [answer]
          exact .empty (List.eq_nil_of_length_eq_zero found.length.symm)
      | cons first rest =>
          have distinct := found.distinct wellFormed
          have allocated : ∀ slot ∈ first :: rest, before.Allocated slot :=
            fun slot member => found.allocated member
          have inside : ∀ slot ∈ first :: rest, slot < width :=
            fun slot member => wellFormed.allocated_lt_width (allocated slot member)
          obtain ⟨place, merged, partition, gathers⟩ :=
            gather_allocated wellFormed first rest allocated
          let sigma := Layout.permutation (Layout.swaps (first :: rest))
          have same : (partition.state.permute sigma).permute sigma.symm = partition.state :=
            SparseState.permute_permute_symm
              (Layout.rearranges_permutation (Layout.swaps_bounded distinct inside)) _
          have answer : takeDump qubits before = .ok before.dumps.size { before with
              arena := merged
              dumps := before.dumps.push
                ((partition.state.permute sigma).dump (first :: rest).length) } := by
            rw [takeDump, Action.bind_of_ok (operands_of_found read)]
            change (Action.merge first rest >>= _) before = _
            rw [Action.bind_of_ok (Action.merge_eq gathers.result),
              Action.bind_of_ok (Action.state_at_eq gathers.found),
              Layout.canonicalize_eq distinct inside, Action.bind_or_fault,
              Layout.restore_eq distinct inside, Action.bind_or_fault, same,
              Action.bind_of_ok (Action.set_state_at_eq gathers.found partition.state)]
            change EStateM.Result.ok before.dumps.size { before with
              arena := merged.withState place partition.state
              dumps := _ } = _
            rw [Arena.with_state_self gathers.found]
          rw [answer]
          exact .recorded found gathers

end Simulator

end SparseQuantum
