import Mathlib
import SparseQuantum.Proofs.LabelledRuns
import SparseQuantum.Proofs.RenamedRuns
import SparseQuantum.Proofs.WellFormedPrograms

/-!
# Programs under new names

A program may give its labels and its qubits other names, different ones to different ones, and list
its blocks in another order. It is then accepted as before, to a graph that is the same under the
new names, so its runs are the same but for the names.
-/

namespace SparseQuantum

set_option autoImplicit false

variable {R : Type} {names : Renaming}

def Ending.rename (names : Renaming) : Ending → Ending
  | jump label => jump (names.label label)
  | branch register onNonzero onZero =>
      branch register (names.label onNonzero) (names.label onZero)
  | stop => stop

namespace Statement

def rename (names : Renaming) : Statement R → Statement R
  | alloc qubit dirty => alloc (names.qubit qubit) dirty
  | free qubit dirty => free (names.qubit qubit) dirty
  | gate name angles target controls =>
      gate name angles (names.qubit target) (controls.map names.qubit)
  | measure qubits register => measure (qubits.map names.qubit) register
  | dump qubits => dump (qubits.map names.qubit)
  | plugin name qubits arguments inverse controls =>
      plugin name (qubits.map names.qubit) arguments inverse (controls.map names.qubit)
  | constant register value => constant register value
  | move target source => move target source
  | binary symbol target left right => binary symbol target left right
  | unary symbol target source => unary symbol target source

def qubits : Statement R → List QubitId
  | alloc qubit _ => [qubit]
  | free qubit _ => [qubit]
  | gate _ _ target controls => target :: controls
  | measure qubits _ => qubits
  | dump qubits => qubits
  | plugin _ qubits _ _ controls => qubits ++ controls
  | _ => []

end Statement

def Block.rename (names : Renaming) (block : Block R) : Block R :=
  ⟨names.label block.label, block.statements.map (Statement.rename names),
    block.ending.rename names⟩

namespace Program

def qubits (program : Program R) : List QubitId :=
  program.blocks.flatMap fun block => block.statements.flatMap Statement.qubits

/-- The program with its labels and qubits renamed and its blocks in some order. -/
structure Renamed (names : Renaming) (program other : Program R) : Prop where
  entry : other.entry = names.label program.entry
  blocks : other.blocks.Perm (program.blocks.map (Block.rename names))

end Program

/-! ### Acceptance -/

theorem Statement.valid_rename (apart : Function.Injective names.qubit) (statement : Statement R)
    (valid : statement.Valid) : (statement.rename names).Valid := by
  cases statement with
  | gate name angles target controls =>
      exact ⟨valid.1, fun again => valid.2 ((List.mem_map_of_injective apart).1 again)⟩
  | measure qubits register => exact (List.length_map names.qubit).trans_le valid
  | _ => exact valid

theorem Ending.targets_rename (ending : Ending) :
    (ending.rename names).targets = ending.targets.map names.label := by
  cases ending <;> rfl

theorem Ending.rename_eq_stop_iff (ending : Ending) :
    ending.rename names = .stop ↔ ending = .stop := by
  cases ending <;> simp [rename]

namespace Program.Renamed

variable {program other : Program R}

theorem labels (renamed : program.Renamed names other) :
    other.labels.Perm (program.labels.map names.label) := by
  have permuted := renamed.blocks.map (·.label)
  rw [List.map_map] at permuted
  rw [Program.labels, Program.labels, List.map_map]
  exact permuted

theorem mem_labels (renamed : program.Renamed names other) {label : String}
    (inside : label ∈ program.labels) : names.label label ∈ other.labels :=
  renamed.labels.mem_iff.2 (List.mem_map_of_mem inside)

theorem well_formed (renamed : program.Renamed names other)
    (labelsApart : Set.InjOn names.label {label | label ∈ program.labels})
    (qubitsApart : Function.Injective names.qubit) (wellFormed : program.WellFormed) :
    other.WellFormed where
  distinct := renamed.labels.nodup_iff.2 (wellFormed.distinct.map_on labelsApart)
  entered := renamed.entry ▸ renamed.mem_labels wellFormed.entered
  valid := by
    intro block inside
    obtain ⟨old, listed, rfl⟩ := List.mem_map.1 (renamed.blocks.mem_iff.1 inside)
    have valid := wellFormed.valid old listed
    constructor
    · intro target named
      rw [Block.rename, Ending.targets_rename] at named
      obtain ⟨label, written, rfl⟩ := List.mem_map.1 named
      exact renamed.mem_labels (valid.defined label written)
    · intro statement performed
      obtain ⟨before, written, rfl⟩ := List.mem_map.1 performed
      exact (before.valid_rename qubitsApart (valid.statements before written))
  stops := by
    have same : (fun block : Block R => decide (block.ending = .stop)) ∘ Block.rename names =
        fun block => decide (block.ending = .stop) := by
      funext block
      simp [Block.rename, Ending.rename_eq_stop_iff]
    rw [stopCount, renamed.blocks.countP_eq, List.countP_map, same]
    exact wellFormed.stops

end Program.Renamed

/-! ### The graph of the renamed program -/

namespace Statement

theorem resolve_gate_relabel {label name : String} {angles : List R} {gate : Gate R}
    (resolved : resolveGate label name angles = .ok gate) (other : String) :
    resolveGate other name angles = .ok gate := by
  have found := resolve_gate_eq_ok resolved
  unfold resolveGate at resolved ⊢
  rw [found] at resolved ⊢
  cases arity : Gate.arity? (upperCase name) with
  | none =>
      rw [arity] at resolved
      cases resolved
  | some expected => rfl

theorem resolve_symbol_relabel {α : Type} {label symbol : String} {operator : Option α} {found : α}
    (resolved : resolveSymbol label symbol operator = .ok found) (other : String) :
    resolveSymbol other symbol operator = .ok found := by
  rw [resolve_symbol_eq_ok resolved]
  rfl

theorem resolve_rename (apart : Function.Injective names.qubit) {label : String} (other : String)
    {statement : Statement R} {instruction : Instruction R}
    (resolved : statement.resolve label = .ok instruction) :
    (statement.rename names).resolve other = .ok (instruction.rename names) := by
  cases statement with
  | gate name angles target controls =>
      obtain ⟨gate, found, resolved⟩ := except_bind_eq_ok resolved
      split_ifs at resolved with clash
      cases resolved
      have clear : names.qubit target ∉ controls.map names.qubit :=
        fun again => clash ((List.mem_map_of_injective apart).1 again)
      rw [rename, resolve, resolve_gate_relabel found other]
      exact if_neg clear
  | measure qubits register =>
      rw [resolve] at resolved
      split_ifs at resolved with wide
      cases resolved
      rw [rename, resolve, List.length_map]
      exact if_neg wide
  | binary symbol target left right =>
      obtain ⟨operator, found, resolved⟩ := except_bind_eq_ok resolved
      cases resolved
      rw [rename, resolve, resolve_symbol_relabel found other]
      rfl
  | unary symbol target source =>
      obtain ⟨operator, found, resolved⟩ := except_bind_eq_ok resolved
      cases resolved
      rw [rename, resolve, resolve_symbol_relabel found other]
      rfl
  | _ =>
      cases resolved
      rfl

end Statement

def Program.Matched (names : Renaming) (program other : Program R) (number place : Nat) : Prop :=
  ∃ label, program.labels.idxOf? label = some number ∧
    other.labels.idxOf? (names.label label) = some place

theorem Ending.matched_of_resolves {program other : Program R} {ending : Ending}
    {successor further : Successor} (resolves : ending.ResolvesTo program.labels successor)
    (renamed : (ending.rename names).ResolvesTo other.labels further) :
    successor.Matched (program.Matched names other) further := by
  cases resolves with
  | jump found =>
      cases renamed with
      | jump there => exact .jump ⟨_, found, there⟩
  | branch nonzero zero =>
      cases renamed with
      | branch onward further => exact .branch ⟨_, nonzero, onward⟩ ⟨_, zero, further⟩
  | stop =>
      cases renamed with
      | stop => exact .stop

theorem Statement.instructions_rename (apart : Function.Injective names.qubit)
    {label other : String} {statements : List (Statement R)}
    {instructions onward : List (Instruction R)}
    (resolved : List.Forall₂ (fun statement instruction =>
      statement.resolve label = .ok instruction) statements instructions)
    (renamed : List.Forall₂ (fun statement instruction =>
      statement.resolve other = .ok instruction) (statements.map (rename names)) onward) :
    onward = instructions.map (Instruction.rename names) := by
  induction resolved generalizing onward with
  | nil =>
      cases renamed
      rfl
  | cons here _ induction =>
      cases renamed with
      | cons there rest =>
          rw [resolve_rename apart other here] at there
          obtain rfl := Except.ok.inj there
          rw [induction rest, List.map_cons]

namespace Program.Renamed

variable {program other : Program R} {graph onward : BlockGraph R}

theorem block_eq (renamed : program.Renamed names other) (distinct : other.labels.Nodup)
    {label : String} {number place : Nat} {block written : Block R}
    {resolved further : GraphBlock R} (placed : program.Placed graph label number block resolved)
    (there : other.Placed onward (names.label label) place written further) :
    written = block.rename names := by
  have listed : block.rename names ∈ other.blocks :=
    renamed.blocks.mem_iff.2 (List.mem_map_of_mem (List.mem_of_find?_eq_some placed.found))
  have labels : written.label = (block.rename names).label := by
    rw [there.label_eq, Block.rename, placed.label_eq]
  exact List.inj_on_of_nodup_map distinct (List.mem_of_find?_eq_some there.found) listed labels

/-- The graph of the renamed program is the graph of the program under new names. -/
theorem graphs (renamed : program.Renamed names other) (apart : Function.Injective names.qubit)
    (resolves : program.ResolvesTo graph) (resolved : other.ResolvesTo onward) :
    graph.UnderNames names (program.Matched names other) onward where
  entry := ⟨program.entry, resolves.entry_found, renamed.entry ▸ resolved.entry_found⟩
  blocks := by
    intro number place ⟨label, found, there⟩
    obtain ⟨block, translated, placed⟩ := resolves.placed found
    obtain ⟨written, further, there⟩ := resolved.placed there
    obtain rfl := renamed.block_eq resolved.labels_distinct placed there
    refine ⟨translated, further, placed.stands, there.stands, ?_, ?_, ?_⟩
    · rw [there.resolves.label_eq, placed.resolves.label_eq, Block.rename]
    · exact Statement.instructions_rename apart placed.resolves.instructions
        there.resolves.instructions
    · exact Ending.matched_of_resolves placed.resolves.ending there.resolves.ending
  last := by
    intro number place ⟨label, found, there⟩
    obtain ⟨block, translated, placed⟩ := resolves.placed found
    obtain ⟨written, further, there⟩ := resolved.placed there
    obtain rfl := renamed.block_eq resolved.labels_distinct placed there
    rw [placed.last_iff resolves, there.last_iff resolved, Block.rename,
      Ending.rename_eq_stop_iff]

end Program.Renamed

/-! ### New names for the qubits of a program -/

instance : Finite QubitId :=
  Finite.of_injective (fun qubit => qubit.number.toFin) fun left right same => by
    cases left
    cases right
    simpa [UInt64.toFin_inj] using same

theorem exists_perm_of_inj_on {name : QubitId → QubitId} {qubits : List QubitId}
    (apart : Set.InjOn name {qubit | qubit ∈ qubits}) :
    ∃ all : Equiv.Perm QubitId, ∀ qubit ∈ qubits, all qubit = name qubit := by
  classical
  let some := Equiv.Set.imageOfInjOn name {qubit | qubit ∈ qubits} apart
  refine ⟨some.extendSubtype, fun qubit inside => ?_⟩
  rw [Equiv.extendSubtype_apply_of_mem some qubit inside]
  rfl

theorem Statement.rename_congr {other : Renaming} (statement : Statement R)
    (same : ∀ qubit ∈ statement.qubits, names.qubit qubit = other.qubit qubit) :
    statement.rename names = statement.rename other := by
  have agree {listed : List QubitId} (inside : listed ⊆ statement.qubits) :
      listed.map names.qubit = listed.map other.qubit :=
    List.map_congr_left fun qubit named => same qubit (inside named)
  cases statement with
  | alloc qubit dirty => rw [rename, rename, same qubit (List.mem_singleton_self qubit)]
  | free qubit dirty => rw [rename, rename, same qubit (List.mem_singleton_self qubit)]
  | gate name angles target controls =>
      rw [rename, rename, same target List.mem_cons_self, agree (List.subset_cons_self _ _)]
  | measure qubits register => exact congrArg (measure · register) (List.map_congr_left same)
  | dump qubits => exact congrArg dump (List.map_congr_left same)
  | plugin name qubits arguments inverse controls =>
      rw [rename, rename, agree (List.subset_append_left _ _),
        agree (List.subset_append_right _ _)]
  | _ => rfl

namespace Program

variable {program other : Program R}

theorem Renamed.congr (renamed : program.Renamed names other) {qubit : QubitId → QubitId}
    (same : ∀ named ∈ program.qubits, qubit named = names.qubit named) :
    program.Renamed ⟨names.label, qubit⟩ other where
  entry := renamed.entry
  blocks := by
    have blocks : program.blocks.map (Block.rename ⟨names.label, qubit⟩) =
        program.blocks.map (Block.rename names) := by
      refine List.map_congr_left fun block listed => ?_
      have statements : block.statements.map (Statement.rename ⟨names.label, qubit⟩) =
          block.statements.map (Statement.rename names) := by
        refine List.map_congr_left fun statement performed => statement.rename_congr ?_
        intro named inside
        exact same named
          (List.mem_flatMap_of_mem listed (List.mem_flatMap_of_mem performed inside))
      rw [Block.rename, Block.rename, statements]
      cases block.ending <;> rfl
    rw [blocks]
    exact renamed.blocks

/-- The order of the blocks and the names of labels and qubits do not matter. The other program is
accepted too, and on every machine and within every budget of blocks its run ends if and only if the
run of the program does, in the same way and with the same simulator but for the names. Only what a
plugin itself answers is passed on as it is, and names no qubit if the plugin knows none. -/
theorem renamed_runs [Scalar R] {graph : BlockGraph R} (accepted : program.resolve = .ok graph)
    (renamed : program.Renamed names other)
    (labelsApart : Set.InjOn names.label {label | label ∈ program.labels})
    (qubitsApart : Set.InjOn names.qubit {qubit | qubit ∈ program.qubits}) :
    ∃ (onward : BlockGraph R) (qubit : Equiv.Perm QubitId),
      other.resolve = .ok onward ∧ (∀ named ∈ program.qubits, qubit named = names.qubit named) ∧
      ∀ (machine : Machine R) settings budget, machine.graph = graph →
        Option.Rel (Machine.Report.UnderNames ⟨names.label, qubit⟩) (machine.run settings budget)
          ({ machine with graph := onward }.run settings budget) := by
  obtain ⟨qubit, same⟩ := exists_perm_of_inj_on qubitsApart
  have renamed := renamed.congr same
  have wellFormed := renamed.well_formed labelsApart qubit.injective
    (program.resolves_iff.1 ⟨graph, accepted⟩)
  obtain ⟨onward, resolved⟩ := other.resolves_iff.2 wellFormed
  refine ⟨onward, qubit, resolved, same, fun machine settings budget loaded => ?_⟩
  have graphs := renamed.graphs qubit.injective (resolves_to_of_ok accepted)
    (resolves_to_of_ok resolved)
  exact machine.run_under_names qubit.injective (loaded ▸ graphs) settings budget

def forgetful : Program Float where
  entry := "begin"
  blocks :=
    [⟨"begin", [.alloc ⟨0⟩ false, .gate "x" [] ⟨0⟩ []], .jump "use"⟩,
      ⟨"use", [.constant ⟨0⟩ 1, .measure [⟨1⟩, ⟨0⟩] ⟨0⟩], .stop⟩]

def forgetfulGraph : BlockGraph Float where
  blocks :=
    [⟨"begin", [.alloc ⟨0⟩ false, .gate .x ⟨0⟩ []], .jump 1⟩,
      ⟨"use", [.constant ⟨0⟩ 1, .measure [⟨1⟩, ⟨0⟩] ⟨0⟩], .stop⟩]
  entry := 0
  last := 1

def reordered : Program Float where
  entry := "use"
  blocks :=
    [⟨"done", [.constant ⟨0⟩ 1, .measure [⟨2⟩, ⟨7⟩] ⟨0⟩], .stop⟩,
      ⟨"use", [.alloc ⟨7⟩ false, .gate "x" [] ⟨7⟩ []], .jump "done"⟩]

def reorderedGraph : BlockGraph Float where
  blocks :=
    [⟨"done", [.constant ⟨0⟩ 1, .measure [⟨2⟩, ⟨7⟩] ⟨0⟩], .stop⟩,
      ⟨"use", [.alloc ⟨7⟩ false, .gate .x ⟨7⟩ []], .jump 0⟩]
  entry := 1
  last := 0

def reorderedNames : Renaming where
  label label := if label = "begin" then "use" else "done"
  qubit qubit := if qubit = ⟨0⟩ then ⟨7⟩ else ⟨2⟩

def runResult (graph : BlockGraph Float) : Option (Except (Interruption Float) Unit) :=
  let settings : Settings := ⟨"plugins", 7, "dumps", 4⟩
  ((Machine.ofGraph settings graph).run settings 5).map (·.result)

theorem reordered_runs :
    forgetful.resolve = .ok forgetfulGraph ∧ forgetful.Renamed reorderedNames reordered ∧
      reordered.resolve = .ok reorderedGraph ∧
      (∃ qubit : Equiv.Perm QubitId, qubit ⟨0⟩ = ⟨7⟩ ∧ qubit ⟨1⟩ = ⟨2⟩ ∧
        ∀ (machine : Machine Float) settings budget, machine.graph = forgetfulGraph →
          Option.Rel (Machine.Report.UnderNames ⟨reorderedNames.label, qubit⟩)
            (machine.run settings budget)
            ({ machine with graph := reorderedGraph }.run settings budget)) ∧
      (Registry.ofSearchPath "plugins" : Registry Float).NamesNoQubits ∧
      runResult forgetfulGraph = some (.error (.failure "use" (.measure [⟨1⟩, ⟨0⟩] ⟨0⟩)
        (.simulation (.notAllocated ⟨1⟩)))) ∧
      runResult reorderedGraph = some (.error (.failure "done" (.measure [⟨2⟩, ⟨7⟩] ⟨0⟩)
        (.simulation (.notAllocated ⟨2⟩)))) := by
  have accepted : forgetful.resolve = .ok forgetfulGraph := by cbv
  have acceptedToo : reordered.resolve = .ok reorderedGraph := by cbv
  have renamed : forgetful.Renamed reorderedNames reordered :=
    ⟨by decide, List.Perm.swap _ _ _⟩
  have labelsApart : ∀ first ∈ forgetful.labels, ∀ second ∈ forgetful.labels,
      reorderedNames.label first = reorderedNames.label second → first = second := by decide
  have qubitsApart : ∀ first ∈ forgetful.qubits, ∀ second ∈ forgetful.qubits,
      reorderedNames.qubit first = reorderedNames.qubit second → first = second := by decide
  obtain ⟨onward, qubit, resolved, same, runs⟩ := renamed_runs accepted renamed
    (fun first listed second => labelsApart first listed second)
    (fun first listed second => qubitsApart first listed second)
  obtain rfl := Except.ok.inj (acceptedToo.symm.trans resolved)
  exact ⟨accepted, renamed, acceptedToo,
    ⟨qubit, same ⟨0⟩ (by decide), same ⟨1⟩ (by decide), runs⟩,
    (only_adds_of_search_path "plugins").names_no_qubits, rfl, rfl⟩

end Program

end SparseQuantum
