import Mathlib
import SparseQuantum.Program.Resolve

/-!
# Resolved graphs

A graph that a program resolves to has the blocks of the program in their order. Each has its label,
its statements one by one with their names resolved, and its ending with every label replaced by the
number of the block that carries it. Labels do not repeat, and the number at which a run stops is
that of the one block whose ending is to stop.
-/

namespace SparseQuantum

set_option autoImplicit false

variable {R : Type}

theorem except_bind_eq_ok {ε α β : Type} {first : Except ε α} {next : α → Except ε β} {result : β}
    (done : (first >>= next) = .ok result) :
    ∃ value, first = .ok value ∧ next value = .ok result := by
  cases first with
  | error stop => cases done
  | ok value => exact ⟨value, rfl, done⟩

theorem forall₂_of_map_m {ε α β : Type} {resolve : α → Except ε β} {given : List α}
    {results : List β} (done : given.mapM resolve = .ok results) :
    List.Forall₂ (fun value result => resolve value = .ok result) given results := by
  induction given generalizing results with
  | nil =>
      cases done
      exact .nil
  | cons value rest ih =>
      rw [List.mapM_cons] at done
      obtain ⟨result, here, done⟩ := except_bind_eq_ok done
      obtain ⟨later, onward, done⟩ := except_bind_eq_ok done
      cases done
      exact .cons here (ih onward)

theorem map_m_of_forall₂ {ε α β : Type} {resolve : α → Except ε β} {given : List α}
    {results : List β}
    (resolves : List.Forall₂ (fun value result => resolve value = .ok result) given results) :
    given.mapM resolve = .ok results := by
  induction resolves with
  | nil => rfl
  | cons here _ induction =>
      rw [List.mapM_cons, here, induction]
      rfl

theorem Statement.resolve_gate_eq_ok {label name : String} {angles : List R} {gate : Gate R}
    (resolved : resolveGate label name angles = .ok gate) :
    Gate.ofName? (upperCase name) angles = some gate := by
  unfold resolveGate at resolved
  cases arity : Gate.arity? (upperCase name) with
  | none =>
      rw [arity] at resolved
      cases resolved
  | some expected =>
      rw [arity] at resolved
      cases found : Gate.ofName? (upperCase name) angles with
      | none =>
          rw [found] at resolved
          cases resolved
      | some other =>
          rw [found] at resolved
          cases resolved
          rfl

theorem Statement.resolve_symbol_eq_ok {α : Type} {label symbol : String} {operator : Option α}
    {found : α} (resolved : resolveSymbol label symbol operator = .ok found) :
    operator = some found := by
  cases operator with
  | none => cases resolved
  | some other =>
      cases resolved
      rfl

inductive Ending.ResolvesTo (labels : List String) : Ending → Successor → Prop where
  | jump {target : String} {number : Nat} (found : labels.idxOf? target = some number) :
      ResolvesTo labels (.jump target) (.jump number)
  | branch {register : RegisterId} {onNonzero onZero : String} {next other : Nat}
      (foundNonzero : labels.idxOf? onNonzero = some next)
      (foundZero : labels.idxOf? onZero = some other) :
      ResolvesTo labels (.branch register onNonzero onZero) (.branch register next other)
  | stop : ResolvesTo labels .stop .stop

structure Block.ResolvesTo (labels : List String) (block : Block R) (resolved : GraphBlock R) :
    Prop where
  label_eq : resolved.label = block.label
  instructions : List.Forall₂
    (fun statement instruction => statement.resolve block.label = .ok instruction)
    block.statements resolved.instructions
  ending : block.ending.ResolvesTo labels resolved.successor

namespace Program

structure ResolvesTo (program : Program R) (graph : BlockGraph R) : Prop where
  labels_distinct : program.labels.Nodup
  entry_found : program.labels.idxOf? program.entry = some graph.entry
  blocks : List.Forall₂ (Block.ResolvesTo program.labels) program.blocks graph.blocks
  last_iff {number : Nat} {block : GraphBlock R} (found : graph.blocks[number]? = some block) :
    number = graph.last ↔ block.successor = .stop

theorem distinct_of_no_repeat {seen given : List String} (none : firstRepeat? seen given = none) :
    given.Nodup ∧ ∀ label ∈ given, label ∉ seen := by
  induction given generalizing seen with
  | nil => exact ⟨List.nodup_nil, fun _ absurdity => absurd absurdity List.not_mem_nil⟩
  | cons label rest ih =>
      unfold firstRepeat? at none
      by_cases repeated : label ∈ seen
      · rw [if_pos repeated] at none
        cases none
      · rw [if_neg repeated] at none
        obtain ⟨distinct, apart⟩ := ih none
        constructor
        · exact List.nodup_cons.2 ⟨fun again => apart label again List.mem_cons_self, distinct⟩
        · intro other listed
          rcases List.mem_cons.1 listed with rfl | listed
          · exact repeated
          · exact fun before => apart other listed (List.mem_cons_of_mem _ before)

theorem block_number_eq_ok {labels : List String} {label target : String} {number : Nat}
    (done : blockNumber labels label target = .ok number) : labels.idxOf? target = some number := by
  unfold blockNumber at done
  cases found : labels.idxOf? target with
  | none =>
      rw [found] at done
      cases done
  | some other =>
      rw [found] at done
      cases done
      rfl

theorem resolve_ending_spec {labels : List String} {label : String} {stopped : Option String}
    {ending : Ending} {successor : Successor}
    (done : resolveEnding labels label stopped ending = .ok successor) :
    ending.ResolvesTo labels successor ∧ (successor = .stop → stopped = none) := by
  cases ending with
  | jump target =>
      obtain ⟨number, found, done⟩ := except_bind_eq_ok done
      cases done
      exact ⟨.jump (block_number_eq_ok found), fun absurdity => by cases absurdity⟩
  | branch register onNonzero onZero =>
      obtain ⟨next, foundNonzero, done⟩ := except_bind_eq_ok done
      obtain ⟨other, foundZero, done⟩ := except_bind_eq_ok done
      cases done
      exact ⟨.branch (block_number_eq_ok foundNonzero) (block_number_eq_ok foundZero),
        fun absurdity => by cases absurdity⟩
  | stop =>
      cases stopped with
      | some first => cases done
      | none =>
          cases done
          exact ⟨.stop, fun _ => rfl⟩

/-- What resolving a run of blocks gives, the first of which has the given number: `before` tells
the block that stops among those before them, and `after` also takes in the run. -/
structure BlocksResolved (labels : List String) (before : Option (String × Nat)) (number : Nat)
    (blocks : List (Block R)) (resolved : List (GraphBlock R)) (after : Option (String × Nat)) :
    Prop where
  blocks : List.Forall₂ (Block.ResolvesTo labels) blocks resolved
  kept : before ≠ none → after = before
  fresh {stop : String × Nat} (stops : after = some stop) : before = some stop ∨ number ≤ stop.2
  stop_iff {offset : Nat} {block : GraphBlock R} (found : resolved[offset]? = some block) :
    block.successor = .stop ↔ before = none ∧ after.map Prod.snd = some (number + offset)

theorem resolve_blocks_spec {labels : List String} {before after : Option (String × Nat)}
    {number : Nat} {blocks : List (Block R)} {resolved : List (GraphBlock R)}
    (done : resolveBlocks labels before number blocks = .ok (resolved, after)) :
    BlocksResolved labels before number blocks resolved after := by
  induction blocks generalizing before number resolved with
  | nil =>
      cases done
      exact ⟨.nil, fun _ => rfl, fun stops => Or.inl stops, fun found => by simp at found⟩
  | cons block rest ih =>
      obtain ⟨successor, ends, done⟩ := except_bind_eq_ok done
      obtain ⟨instructions, translated, done⟩ := except_bind_eq_ok done
      obtain ⟨⟨later, stopped⟩, onward, done⟩ := except_bind_eq_ok done
      cases done
      obtain ⟨ending, unstopped⟩ := resolve_ending_spec ends
      have unstopped (stops : successor = .stop) : before = none :=
        Option.map_eq_none_iff.1 (unstopped stops)
      have tail := ih onward
      have all := List.Forall₂.cons (R := Block.ResolvesTo labels)
        (⟨rfl, forall₂_of_map_m translated, ending⟩ :
          block.ResolvesTo labels ⟨block.label, instructions, successor⟩) tail.blocks
      by_cases stops : successor = .stop
      · -- The block stops, so none after it does.
        rw [if_pos stops] at tail
        have ended := tail.kept (by simp)
        refine ⟨all, fun given => absurd (unstopped stops) given, ?_, ?_⟩
        · intro stop same
          rw [ended] at same
          cases same
          exact Or.inr le_rfl
        · intro offset found here
          cases offset with
          | zero =>
              cases here
              exact ⟨fun _ => ⟨unstopped stops, by rw [ended]; rfl⟩, fun _ => stops⟩
          | succ offset =>
              have none := tail.stop_iff here
              constructor
              · exact fun again => absurd (none.1 again).1 (by simp)
              · intro ⟨_, same⟩
                rw [ended] at same
                simp at same
      · rw [if_neg stops] at tail
        refine ⟨all, tail.kept, ?_, ?_⟩
        · intro stop same
          rcases tail.fresh same with earlier | after
          · exact Or.inl earlier
          · exact Or.inr (by omega)
        · intro offset found here
          cases offset with
          | zero =>
              cases here
              refine ⟨fun again => absurd again stops, fun ⟨nothing, same⟩ => ?_⟩
              obtain ⟨stop, ended, same⟩ := Option.map_eq_some_iff.1 same
              rcases tail.fresh ended with earlier | after
              · rw [nothing] at earlier
                cases earlier
              · omega
          | succ offset =>
              have onward := tail.stop_iff here
              rw [show number + (offset + 1) = number + 1 + offset by omega]
              exact onward

theorem resolves_to_of_ok {program : Program R} {graph : BlockGraph R}
    (resolved : program.resolve = .ok graph) : program.ResolvesTo graph := by
  unfold resolve at resolved
  cases repeated : firstRepeat? [] program.labels with
  | some label =>
      rw [repeated] at resolved
      cases resolved
  | none =>
      rw [repeated] at resolved
      cases entered : program.labels.idxOf? program.entry with
      | none =>
          rw [entered] at resolved
          cases resolved
      | some entry =>
          rw [entered] at resolved
          obtain ⟨⟨blocks, stopped⟩, taken, resolved⟩ := except_bind_eq_ok resolved
          cases stopped with
          | none => cases resolved
          | some stop =>
              cases resolved
              have spec := resolve_blocks_spec taken
              refine ⟨(distinct_of_no_repeat repeated).1, entered, spec.blocks, ?_⟩
              intro number block found
              rw [spec.stop_iff found, Nat.zero_add, Option.map_some, Option.some_inj]
              exact ⟨fun same => ⟨rfl, same.symm⟩, fun same => same.2.symm⟩

/-! ### Blocks and their numbers -/

/-- A block of the program, found by its label, and what it became. -/
structure Placed (program : Program R) (graph : BlockGraph R) (label : String) (number : Nat)
    (block : Block R) (resolved : GraphBlock R) : Prop where
  found : program.blocks.find? (·.label == label) = some block
  stands : graph.blocks[number]? = some resolved
  resolves : block.ResolvesTo program.labels resolved
  label_eq : block.label = label

theorem ResolvesTo.placed {program : Program R} {graph : BlockGraph R}
    (resolves : program.ResolvesTo graph) {label : String} {number : Nat}
    (found : program.labels.idxOf? label = some number) :
    ∃ block resolved, program.Placed graph label number block resolved := by
  obtain ⟨bound, here, earlier⟩ := List.idxOf?_eq_some_iff.1 found
  simp only [labels, List.length_map, List.getElem_map] at bound here earlier
  have within : number < graph.blocks.length := by
    rw [← resolves.blocks.length_eq]
    exact bound
  refine ⟨program.blocks[number], graph.blocks[number], ?_, List.getElem?_eq_getElem within,
    resolves.blocks.get bound within, here⟩
  rw [List.find?_eq_some_iff_getElem]
  refine ⟨by simp [here], number, bound, rfl, ?_⟩
  intro place before
  simp [earlier place before]

theorem ResolvesTo.number_lt {program : Program R} {graph : BlockGraph R}
    (resolves : program.ResolvesTo graph) {label : String} {number : Nat}
    (found : program.labels.idxOf? label = some number) : number < graph.blocks.length := by
  obtain ⟨_, _, placed⟩ := resolves.placed found
  exact (List.getElem?_eq_some_iff.1 placed.stands).1

end Program

end SparseQuantum
