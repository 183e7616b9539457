import Mathlib
import SparseQuantum.Proofs.ResolvedGraphs

/-!
# Well-formed programs

Which programs have a graph can be said without resolving anything: the labels differ, every label
that is named is one of them, one block stops, and each statement is valid by tables of the known
names. What is wrong with a program is the list of all checks that it violates, in the order in
which they are made. Resolving a program gives the first of them, and a graph if there is none; the
graph has the blocks of the program in their order, with every name replaced by what it stands for.
-/

namespace SparseQuantum

set_option autoImplicit false

variable {R : Type}

/-! ### Tables of names -/

def Gate.mnemonics : List (String × Nat) :=
  [("X", 0), ("Y", 0), ("Z", 0), ("H", 0), ("S", 0), ("SD", 0), ("T", 0), ("TD", 0), ("P", 1),
    ("RX", 1), ("RY", 1), ("RZ", 1), ("U2", 2), ("U3", 3)]

def BinaryOperator.symbols : List String :=
  ["==", "!=", ">", ">=", "<", "<=", "+", "-", "*", "/", "<<", ">>", "and", "or", "xor"]

def UnaryOperator.symbols : List (String × UnaryOperator) :=
  [("neg", .negate), ("-", .negate), ("not", .complement), ("~", .complement)]

theorem Gate.arity_eq_lookup (name : String) : arity? name = mnemonics.lookup name := by
  by_cases known : name ∈ mnemonics.map (·.1)
  · simp only [mnemonics, List.map_cons, List.map_nil, List.mem_cons, List.not_mem_nil,
      or_false] at known
    rcases known with rfl | rfl | rfl | rfl | rfl | rfl | rfl | rfl | rfl | rfl | rfl | rfl |
      rfl | rfl <;> decide
  · have absent : mnemonics.lookup name = none := by
      rw [List.lookup_eq_none_iff]
      intro entry inside
      have other : name ≠ entry.1 := fun same => known (List.mem_map.2 ⟨entry, inside, same.symm⟩)
      simpa using other
    rw [absent]
    simp only [mnemonics, List.map_cons, List.map_nil, List.mem_cons, List.not_mem_nil,
      or_false, not_or] at known
    simp [arity?, known]

theorem Gate.of_name_eq_some_iff (name : String) (angles : List R) (gate : Gate R) :
    ofName? name angles = some gate ↔ gate.name = name ∧ gate.angles = angles := by
  constructor
  · intro found
    unfold ofName? at found
    split at found <;> (try split_ifs at found) <;> cases found <;>
      simp_all [Gate.name, Gate.angles]
  · rintro ⟨rfl, rfl⟩
    cases gate <;> rfl

/-- The two tables of mnemonics agree. -/
theorem Gate.of_name_known_iff (name : String) (angles : List R) :
    (∃ gate : Gate R, ofName? name angles = some gate) ↔ arity? name = some angles.length := by
  constructor
  · rintro ⟨gate, found⟩
    obtain ⟨rfl, rfl⟩ := (of_name_eq_some_iff name angles gate).1 found
    cases gate <;> rfl
  · intro known
    unfold arity? at known
    split_ifs at known with none one two three
    · obtain rfl := List.length_eq_zero_iff.1 (Option.some.inj known).symm
      simp only [List.mem_cons, List.not_mem_nil, or_false] at none
      rcases none with rfl | rfl | rfl | rfl | rfl | rfl | rfl | rfl <;> exact ⟨_, rfl⟩
    · obtain ⟨angle, rfl⟩ := List.length_eq_one_iff.1 (Option.some.inj known).symm
      simp only [List.mem_cons, List.not_mem_nil, or_false] at one
      rcases one with rfl | rfl | rfl | rfl <;> exact ⟨_, rfl⟩
    · obtain ⟨phi, lambda, rfl⟩ := List.length_eq_two.1 (Option.some.inj known).symm
      exact ⟨.u2 phi lambda, by rw [two]; rfl⟩
    · obtain ⟨theta, phi, lambda, rfl⟩ := List.length_eq_three.1 (Option.some.inj known).symm
      exact ⟨.u3 theta phi lambda, by rw [three]; rfl⟩

theorem BinaryOperator.of_symbol_eq_some_iff (symbol : String) (operator : BinaryOperator) :
    ofSymbol? symbol = some operator ↔ operator.symbol = symbol := by
  constructor
  · intro found
    simpa using List.find?_some found
  · rintro rfl
    cases operator <;> decide

theorem BinaryOperator.of_symbol_eq_none_iff (symbol : String) :
    ofSymbol? symbol = none ↔ symbol ∉ symbols := by
  have listed : all.map BinaryOperator.symbol = symbols := by decide
  rw [ofSymbol?, List.find?_eq_none, ← listed, List.mem_map]
  simp

theorem UnaryOperator.of_symbol_eq_lookup (symbol : String) :
    ofSymbol? symbol = symbols.lookup symbol := by
  unfold ofSymbol?
  split_ifs with negates complements
  · rcases negates with rfl | rfl <;> decide
  · rcases complements with rfl | rfl <;> decide
  · have others := not_or.1 negates
    have rest := not_or.1 complements
    simp [symbols, List.lookup, beq_eq_false_iff_ne.2 others.1, beq_eq_false_iff_ne.2 others.2,
      beq_eq_false_iff_ne.2 rest.1, beq_eq_false_iff_ne.2 rest.2]

/-! ### Checks and what they report -/

/-- The result is an error just if there are defects, and then it is the first of them. -/
def Reports {ε α : Type} (result : Except ε α) (defects : List ε) : Prop :=
  ∀ error, result = .error error ↔ defects.head? = some error

namespace Reports

variable {ε α β : Type}

theorem ok (value : α) : Reports (.ok value : Except ε α) [] := by
  intro error
  simp

theorem error (defect : ε) : Reports (.error defect : Except ε α) [defect] := by
  intro error
  simp

theorem check (violated : Prop) [Decidable violated] (defect : ε) (value : α) :
    Reports (if violated then .error defect else .ok value)
      (if violated then [defect] else []) := by
  split_ifs
  · exact error defect
  · exact ok value

theorem ok_iff {result : Except ε α} {defects : List ε} (reports : Reports result defects) :
    (∃ value, result = .ok value) ↔ defects = [] := by
  cases result with
  | error stop =>
      have first := (reports stop).1 rfl
      constructor
      · exact fun ⟨_, absurdity⟩ => by cases absurdity
      · exact fun none => by rw [none] at first; cases first
  | ok value =>
      refine ⟨fun _ => ?_, fun _ => ⟨value, rfl⟩⟩
      cases defects with
      | nil => rfl
      | cons first rest => exact absurd ((reports first).2 rfl) (by simp)

theorem bind {first : Except ε α} {next : α → Except ε β} {defects others : List ε}
    (here : Reports first defects)
    (later : ∀ value, first = .ok value → Reports (next value) others) :
    Reports (first >>= next) (defects ++ others) := by
  cases first with
  | error stop =>
      have found := (here stop).1 rfl
      cases defects with
      | nil => cases found
      | cons defect rest =>
          obtain rfl := Option.some.inj found
          intro error
          change (Except.error defect : Except ε β) = .error error ↔ some defect = some error
          simp
  | ok value =>
      rw [here.ok_iff.1 ⟨value, rfl⟩]
      exact later value rfl

theorem map {first : Except ε α} {defects : List ε} (here : Reports first defects)
    (finish : α → β) : Reports (first >>= fun value => .ok (finish value)) defects := by
  have both := here.bind fun value _ => ok (finish value)
  rwa [List.append_nil] at both

theorem error_first {first : ε} {defects : List ε} (here : defects.head? = some first)
    (others : List ε) : Reports (.error first : Except ε α) (defects ++ others) := by
  intro error
  rw [List.head?_append, here]
  simp

theorem map_m {check : α → Except ε β} {defects : α → List ε}
    (each : ∀ value, Reports (check value) (defects value)) (values : List α) :
    Reports (values.mapM check) (values.flatMap defects) := by
  induction values with
  | nil => exact ok []
  | cons value rest induction =>
      rw [List.mapM_cons, List.flatMap_cons]
      exact (each value).bind fun result _ => induction.map (result :: ·)

end Reports

def prefixed {α : Type} (before : List α) : List α → List (List α × α)
  | [] => []
  | item :: rest => (before, item) :: prefixed (before ++ [item]) rest

/-! ### Defects -/

namespace Statement

/-- What is wrong with a gate: its name, then the number of angles, then the controls. -/
def gateDefects (label name : String) (count : Nat) (target : QubitId) (controls : List QubitId) :
    List ProgramError :=
  (match Gate.mnemonics.lookup (upperCase name) with
    | none => [.unknownOperation label name]
    | some expected =>
        if count = expected then []
        else [.argumentCount label (upperCase name) expected count]) ++
  (if target ∈ controls then [.controlIsTarget label name target] else [])

def defects (label : String) : Statement R → List ProgramError
  | gate name angles target controls => gateDefects label name angles.length target controls
  | measure qubits _ => if 64 < qubits.length then [.measureTooWide label qubits.length] else []
  | binary symbol .. =>
      if symbol ∈ BinaryOperator.symbols then [] else [.unknownOperation label symbol]
  | unary symbol .. =>
      if (UnaryOperator.symbols.lookup symbol).isSome then [] else [.unknownOperation label symbol]
  | _ => []

theorem resolve_gate_reports (label name : String) (angles : List R) :
    Reports (resolveGate label name angles)
      (match Gate.mnemonics.lookup (upperCase name) with
        | none => [.unknownOperation label name]
        | some expected =>
            if angles.length = expected then []
            else [.argumentCount label (upperCase name) expected angles.length]) := by
  have agree := Gate.of_name_known_iff (upperCase name) angles
  unfold resolveGate
  rw [← Gate.arity_eq_lookup]
  cases known : Gate.arity? (upperCase name) with
  | none => exact Reports.error _
  | some expected =>
      rw [known] at agree
      by_cases enough : angles.length = expected
      · obtain ⟨gate, found⟩ := agree.2 (congrArg some enough.symm)
        simp only [found, if_pos enough]
        exact Reports.ok gate
      · have none : Gate.ofName? (upperCase name) angles = none := by
          rw [Option.eq_none_iff_forall_ne_some]
          intro gate found
          exact enough (Option.some.inj (agree.1 ⟨gate, found⟩)).symm
        simp only [none, if_neg enough]
        exact Reports.error _

theorem resolve_symbol_reports {α : Type} {label symbol : String} {operator : Option α}
    {known : Prop} [Decidable known] (listed : operator.isSome = true ↔ known) :
    Reports (resolveSymbol label symbol operator)
      (if known then [] else [.unknownOperation label symbol]) := by
  cases operator with
  | none =>
      rw [if_neg fun present => by cases listed.2 present]
      exact Reports.error _
  | some operator =>
      rw [if_pos (listed.1 rfl)]
      exact Reports.ok operator

theorem resolve_reports (label : String) (statement : Statement R) :
    Reports (statement.resolve label) (statement.defects label) := by
  cases statement with
  | gate name angles target controls =>
      exact (resolve_gate_reports label name angles).bind fun gate _ => Reports.check _ _ _
  | measure qubits register => exact Reports.check (64 < qubits.length) _ _
  | binary symbol target left right =>
      have listed : (BinaryOperator.ofSymbol? symbol).isSome = true ↔
          symbol ∈ BinaryOperator.symbols := by
        rw [← Option.ne_none_iff_isSome, ne_eq, BinaryOperator.of_symbol_eq_none_iff, not_not]
      exact (resolve_symbol_reports listed).map fun operator =>
        Instruction.binary operator target left right
  | unary symbol target source =>
      have listed : (UnaryOperator.ofSymbol? symbol).isSome = true ↔
          (UnaryOperator.symbols.lookup symbol).isSome = true := by
        rw [UnaryOperator.of_symbol_eq_lookup]
      exact (resolve_symbol_reports listed).map fun operator =>
        Instruction.unary operator target source
  | _ => exact Reports.ok _

end Statement

namespace Ending

def targets : Ending → List String
  | jump label => [label]
  | branch _ onNonzero onZero => [onNonzero, onZero]
  | stop => []

/-- What is wrong with the ending of a block, where `stopped` is the label of the first block in
front of it that stops. -/
def defects (labels : List String) (label : String) (stopped : Option String) (ending : Ending) :
    List ProgramError :=
  ending.targets.flatMap (fun target =>
    if target ∈ labels then [] else [.undefinedLabel label target]) ++
  (if ending = stop then stopped.toList.map fun first => .duplicateEnd first label else [])

theorem block_number_reports (labels : List String) (label target : String) :
    Reports (Program.blockNumber labels label target)
      (if target ∈ labels then [] else [.undefinedLabel label target]) := by
  unfold Program.blockNumber
  cases found : labels.idxOf? target with
  | none =>
      rw [if_neg (List.idxOf?_eq_none_iff.1 found)]
      exact Reports.error _
  | some number =>
      have listed : target ∈ labels := by
        rw [← List.isSome_idxOf?, found]
        rfl
      rw [if_pos listed]
      exact Reports.ok number

theorem resolve_reports (labels : List String) (label : String) (stopped : Option String)
    (ending : Ending) :
    Reports (Program.resolveEnding labels label stopped ending)
      (ending.defects labels label stopped) := by
  cases ending with
  | jump target =>
      have number := (block_number_reports labels label target).map Successor.jump
      simpa [defects, targets, Program.resolveEnding] using number
  | branch register onNonzero onZero =>
      have both := (block_number_reports labels label onNonzero).bind fun next _ =>
        (block_number_reports labels label onZero).map (Successor.branch register next)
      simpa [defects, targets, Program.resolveEnding] using both
  | stop =>
      cases stopped with
      | none => exact Reports.ok _
      | some first => exact Reports.error _

end Ending

def Block.defects (labels : List String) (stopped : Option String) (block : Block R) :
    List ProgramError :=
  block.ending.defects labels block.label stopped ++
    block.statements.flatMap (Statement.defects block.label)

namespace Program

def firstStop (blocks : List (Block R)) : Option String :=
  (blocks.find? fun block => decide (block.ending = .stop)).map (·.label)

/-- All violated checks in the order in which they are made. -/
def defects (program : Program R) : List ProgramError :=
  ((prefixed [] program.labels).flatMap fun (before, label) =>
    if label ∈ before then [.duplicateLabel label] else []) ++
  ((if program.entry ∈ program.labels then [] else [.missingEntry program.entry]) ++
  (((prefixed [] program.blocks).flatMap fun (before, block) =>
    block.defects program.labels (firstStop before)) ++
  (if (firstStop program.blocks).isSome then [] else [.missingEnd])))

theorem first_repeat_reports {seen before : List String}
    (same : ∀ label, label ∈ seen ↔ label ∈ before) (rest : List String) :
    (firstRepeat? seen rest).map ProgramError.duplicateLabel =
      ((prefixed before rest).flatMap fun (before, label) =>
        if label ∈ before then [.duplicateLabel label] else []).head? := by
  induction rest generalizing seen before with
  | nil => rfl
  | cons label rest induction =>
      have longer (other : String) : other ∈ label :: seen ↔ other ∈ before ++ [label] := by
        rw [List.mem_cons, List.mem_append, List.mem_singleton, same]
        exact or_comm
      rw [firstRepeat?, prefixed, List.flatMap_cons]
      by_cases again : label ∈ before
      · simp [again, (same label).2 again]
      · rw [if_neg fun known => again ((same label).1 known)]
        simp only [if_neg again, List.nil_append]
        exact induction longer

theorem first_stop_append (before : List (Block R)) (block : Block R) :
    firstStop (before ++ [block]) =
      (firstStop before).or (if block.ending = .stop then some block.label else none) := by
  unfold firstStop
  rw [List.find?_append]
  cases before.find? fun block => decide (block.ending = .stop) with
  | some first => rfl
  | none => by_cases stops : block.ending = .stop <;> simp [stops]

/-- Which block stops is known after each block as it is of the blocks so far. -/
theorem stopped_onward {labels : List String} {stopped : Option (String × Nat)} {number : Nat}
    {before : List (Block R)} {block : Block R} {successor : Successor}
    (known : stopped.map (·.1) = firstStop before)
    (ends : resolveEnding labels block.label (stopped.map (·.1)) block.ending = .ok successor) :
    (if successor = .stop then some (block.label, number) else stopped).map (·.1) =
      firstStop (before ++ [block]) := by
  obtain ⟨ending, unstopped⟩ := resolve_ending_spec ends
  rw [first_stop_append, ← known]
  have stops : successor = .stop ↔ block.ending = .stop := by
    generalize block.ending = written at ending
    cases ending <;> simp
  by_cases last : block.ending = .stop
  · rw [unstopped (stops.2 last), if_pos (stops.2 last), if_pos last]
    rfl
  · rw [if_neg fun stop => last (stops.1 stop), if_neg last, Option.or_none]

theorem resolve_blocks_reports {labels : List String} {stopped : Option (String × Nat)}
    {before : List (Block R)} (number : Nat) (rest : List (Block R))
    (known : stopped.map (·.1) = firstStop before) :
    Reports (resolveBlocks labels stopped number rest)
      ((prefixed before rest).flatMap fun (before, block) =>
        block.defects labels (firstStop before)) := by
  induction rest generalizing stopped before number with
  | nil => exact Reports.ok _
  | cons block rest induction =>
      rw [resolveBlocks, prefixed, List.flatMap_cons]
      simp only [Block.defects, List.append_assoc]
      rw [← known]
      refine (block.ending.resolve_reports labels block.label _).bind fun successor ends => ?_
      refine (Reports.map_m (Statement.resolve_reports block.label) block.statements).bind
        fun instructions _ => ?_
      exact (induction (number + 1) (stopped_onward known ends)).map _

theorem resolve_blocks_stopped {labels : List String} {stopped after : Option (String × Nat)}
    {before rest : List (Block R)} {number : Nat} {resolved : List (GraphBlock R)}
    (known : stopped.map (·.1) = firstStop before)
    (done : resolveBlocks labels stopped number rest = .ok (resolved, after)) :
    after.map (·.1) = firstStop (before ++ rest) := by
  induction rest generalizing stopped before number resolved with
  | nil =>
      cases done
      rw [List.append_nil]
      exact known
  | cons block rest induction =>
      obtain ⟨successor, ends, done⟩ := except_bind_eq_ok done
      obtain ⟨instructions, _, done⟩ := except_bind_eq_ok done
      obtain ⟨⟨later, reached⟩, onward, done⟩ := except_bind_eq_ok done
      cases done
      have further := induction (stopped_onward known ends) onward
      rw [further, List.append_assoc]
      rfl

theorem resolve_reports (program : Program R) : Reports program.resolve program.defects := by
  have repeats := @first_repeat_reports [] [] (fun _ => Iff.rfl) program.labels
  unfold resolve defects
  cases repeated : firstRepeat? [] program.labels with
  | some label =>
      rw [repeated] at repeats
      exact Reports.error_first repeats.symm _
  | none =>
      rw [repeated] at repeats
      rw [List.head?_eq_none_iff.1 repeats.symm, List.nil_append]
      cases entered : program.labels.idxOf? program.entry with
      | none =>
          rw [if_neg (List.idxOf?_eq_none_iff.1 entered)]
          exact Reports.error_first rfl _
      | some entry =>
          have listed : program.entry ∈ program.labels := by
            rw [← List.isSome_idxOf?, entered]
            rfl
          rw [if_pos listed, List.nil_append]
          refine (resolve_blocks_reports 0 program.blocks rfl).bind fun ⟨blocks, after⟩ done => ?_
          have stopped : after.map (·.1) = firstStop program.blocks :=
            @resolve_blocks_stopped R program.labels none after [] program.blocks 0 blocks rfl done
          rw [← stopped]
          cases after with
          | none => exact Reports.error _
          | some stop => exact Reports.ok _

end Program

/-! ### Well-formed programs -/

def Statement.Valid : Statement R → Prop
  | gate name angles target controls =>
      Gate.mnemonics.lookup (upperCase name) = some angles.length ∧ target ∉ controls
  | measure qubits _ => qubits.length ≤ 64
  | binary symbol .. => symbol ∈ BinaryOperator.symbols
  | unary symbol .. => (UnaryOperator.symbols.lookup symbol).isSome
  | _ => True

structure Block.Valid (labels : List String) (block : Block R) : Prop where
  defined : ∀ target ∈ block.ending.targets, target ∈ labels
  statements : ∀ statement ∈ block.statements, statement.Valid

def Program.stopCount (blocks : List (Block R)) : Nat :=
  blocks.countP fun block => decide (block.ending = .stop)

/-- The labels differ and the entry is one of them, one block stops, and all blocks are valid. -/
structure Program.WellFormed (program : Program R) : Prop where
  distinct : program.labels.Nodup
  entered : program.entry ∈ program.labels
  valid : ∀ block ∈ program.blocks, block.Valid program.labels
  stops : stopCount program.blocks = 1

theorem Statement.defects_eq_nil_iff (label : String) (statement : Statement R) :
    statement.defects label = [] ↔ statement.Valid := by
  cases statement with
  | gate name angles target controls =>
      unfold defects gateDefects Valid
      simp only [List.append_eq_nil_iff]
      refine and_congr ?_ (by split_ifs <;> simp_all)
      cases Gate.mnemonics.lookup (upperCase name) with
      | none => simp
      | some expected =>
          simp only [Option.some.injEq, ite_eq_left_iff, List.cons_ne_nil, imp_false, not_not]
          exact eq_comm
  | measure qubits register => simp [defects, Valid]
  | binary symbol target left right => simp [defects, Valid]
  | unary symbol target source => simp [defects, Valid]
  | _ => simp [defects, Valid]

theorem Ending.defects_eq_nil_iff (labels : List String) (label : String) (stopped : Option String)
    (ending : Ending) :
    ending.defects labels label stopped = [] ↔
      (∀ target ∈ ending.targets, target ∈ labels) ∧ (ending = stop → stopped = none) := by
  unfold defects
  rw [List.append_eq_nil_iff, List.flatMap_eq_nil_iff]
  refine and_congr (by simp) ?_
  split_ifs with stops <;> simp [stops]

theorem Block.defects_eq_nil_iff (labels : List String) (stopped : Option String)
    (block : Block R) :
    block.defects labels stopped = [] ↔
      block.Valid labels ∧ (block.ending = .stop → stopped = none) := by
  rw [Block.defects, List.append_eq_nil_iff, Ending.defects_eq_nil_iff, List.flatMap_eq_nil_iff]
  simp only [Statement.defects_eq_nil_iff]
  rw [and_right_comm]
  exact and_congr_left fun _ => ⟨fun ⟨defined, valid⟩ => ⟨defined, valid⟩,
    fun valid => ⟨valid.defined, valid.statements⟩⟩

theorem forall_prefixed_not_mem {before rest : List String} :
    (∀ pair ∈ prefixed before rest, pair.2 ∉ pair.1) ↔
      rest.Nodup ∧ ∀ label ∈ rest, label ∉ before := by
  induction rest generalizing before with
  | nil => simp [prefixed]
  | cons label rest induction =>
      rw [prefixed, List.forall_mem_cons, induction, List.nodup_cons, List.forall_mem_cons]
      simp only [List.mem_append, List.mem_singleton, not_or]
      constructor
      · intro ⟨fresh, distinct, apart⟩
        exact ⟨⟨fun again => (apart label again).2 rfl, distinct⟩, fresh,
          fun other inside => (apart other inside).1⟩
      · intro ⟨⟨single, distinct⟩, fresh, apart⟩
        exact ⟨fresh, distinct, fun other inside =>
          ⟨apart other inside, fun same => single (same ▸ inside)⟩⟩

theorem forall_prefixed_snd {α : Type} {property : α → Prop} {before rest : List α} :
    (∀ pair ∈ prefixed before rest, property pair.2) ↔ ∀ item ∈ rest, property item := by
  induction rest generalizing before with
  | nil => simp [prefixed]
  | cons item rest induction =>
      rw [prefixed, List.forall_mem_cons, induction, List.forall_mem_cons]

namespace Program

theorem first_stop_eq_none_iff (blocks : List (Block R)) :
    firstStop blocks = none ↔ stopCount blocks = 0 := by
  rw [firstStop, Option.map_eq_none_iff, List.find?_eq_none, stopCount, List.countP_eq_zero]

theorem forall_prefixed_stop {before rest : List (Block R)} :
    (∀ pair ∈ prefixed before rest, pair.2.ending = .stop → firstStop pair.1 = none) ↔
      stopCount rest = 0 ∨ stopCount before = 0 ∧ stopCount rest ≤ 1 := by
  induction rest generalizing before with
  | nil => simp [prefixed, stopCount]
  | cons block rest induction =>
      rw [prefixed, List.forall_mem_cons, induction, first_stop_eq_none_iff]
      have further : stopCount (before ++ [block]) =
          stopCount before + if block.ending = .stop then 1 else 0 := by
        rw [stopCount, List.countP_append, List.countP_singleton]
        simp [stopCount]
      have count : stopCount (block :: rest) =
          stopCount rest + if block.ending = .stop then 1 else 0 := by
        rw [stopCount, List.countP_cons]
        simp [stopCount]
      rw [further, count]
      by_cases stops : block.ending = .stop
      · simp only [stops, if_true, true_implies]
        omega
      · simp only [stops, if_false, false_implies, true_and, Nat.add_zero]

/-- A program without defects is a well-formed one. -/
theorem defects_eq_nil_iff (program : Program R) :
    program.defects = [] ↔ program.WellFormed := by
  have once : (prefixed [] program.labels).flatMap (fun (before, label) =>
      if label ∈ before then [ProgramError.duplicateLabel label] else []) = [] ↔
      program.labels.Nodup := by
    have spec := @forall_prefixed_not_mem [] program.labels
    rw [List.flatMap_eq_nil_iff]
    simpa using spec
  have entered : (if program.entry ∈ program.labels then []
      else [ProgramError.missingEntry program.entry]) = [] ↔ program.entry ∈ program.labels := by
    simp
  have blocks : (prefixed [] program.blocks).flatMap (fun (before, block) =>
      block.defects program.labels (firstStop before)) = [] ↔
      (∀ block ∈ program.blocks, block.Valid program.labels) ∧ stopCount program.blocks ≤ 1 := by
    have single := @forall_prefixed_stop R [] program.blocks
    have none : stopCount ([] : List (Block R)) = 0 := rfl
    rw [List.flatMap_eq_nil_iff]
    simp only [Block.defects_eq_nil_iff, forall₂_and]
    rw [forall_prefixed_snd, single]
    exact and_congr_right fun _ => by omega
  have ended : (if (firstStop program.blocks).isSome then [] else [ProgramError.missingEnd]) = [] ↔
      stopCount program.blocks ≠ 0 := by
    rw [ne_eq, ← first_stop_eq_none_iff]
    cases firstStop program.blocks <;> simp
  unfold defects
  rw [List.append_eq_nil_iff, List.append_eq_nil_iff, List.append_eq_nil_iff, once, entered, blocks,
    ended]
  constructor
  · intro ⟨distinct, entered, ⟨valid, single⟩, stops⟩
    exact ⟨distinct, entered, valid, by omega⟩
  · intro ⟨distinct, entered, valid, stops⟩
    exact ⟨distinct, entered, ⟨valid, by omega⟩, by omega⟩

theorem resolves_iff (program : Program R) :
    (∃ graph, program.resolve = .ok graph) ↔ program.WellFormed :=
  program.resolve_reports.ok_iff.trans program.defects_eq_nil_iff

end Program

/-! ### The graph of a program -/

def StandsAt (labels : List String) (label : String) (number : Nat) : Prop :=
  ∀ place, labels[place]? = some label ↔ place = number

inductive Statement.Becomes : Statement R → Instruction R → Prop where
  | alloc {qubit : QubitId} {dirty : Bool} : Becomes (.alloc qubit dirty) (.alloc qubit dirty)
  | free {qubit : QubitId} {dirty : Bool} : Becomes (.free qubit dirty) (.free qubit dirty)
  | gate {name : String} {angles : List R} {gate : Gate R} {target : QubitId}
      {controls : List QubitId} (named : gate.name = upperCase name)
      (given : gate.angles = angles) :
      Becomes (.gate name angles target controls) (.gate gate target controls)
  | measure {qubits : List QubitId} {register : RegisterId} :
      Becomes (.measure qubits register) (.measure qubits register)
  | dump {qubits : List QubitId} : Becomes (.dump qubits) (.dump qubits)
  | plugin {name : String} {qubits : List QubitId} {arguments : String} {inverse : Bool}
      {controls : List QubitId} :
      Becomes (.plugin name qubits arguments inverse controls)
        (.plugin name qubits arguments inverse controls)
  | constant {register : RegisterId} {value : Int64} :
      Becomes (.constant register value) (.constant register value)
  | move {target source : RegisterId} : Becomes (.move target source) (.move target source)
  | binary {symbol : String} {operator : BinaryOperator} {target left right : RegisterId}
      (named : operator.symbol = symbol) :
      Becomes (.binary symbol target left right) (.binary operator target left right)
  | unary {symbol : String} {operator : UnaryOperator} {target source : RegisterId}
      (named : UnaryOperator.symbols.lookup symbol = some operator) :
      Becomes (.unary symbol target source) (.unary operator target source)

/-- Each label is replaced by the place of the one block that has it. -/
inductive Ending.Becomes (labels : List String) : Ending → Successor → Prop where
  | jump {target : String} {number : Nat} (stands : StandsAt labels target number) :
      Becomes labels (.jump target) (.jump number)
  | branch {register : RegisterId} {onNonzero onZero : String} {next other : Nat}
      (standsNonzero : StandsAt labels onNonzero next) (standsZero : StandsAt labels onZero other) :
      Becomes labels (.branch register onNonzero onZero) (.branch register next other)
  | stop : Becomes labels .stop .stop

structure Block.Becomes (labels : List String) (block : Block R) (resolved : GraphBlock R) :
    Prop where
  label : resolved.label = block.label
  instructions : List.Forall₂ Statement.Becomes block.statements resolved.instructions
  ending : block.ending.Becomes labels resolved.successor

/-- The graph has the blocks of the program in their order, begins at the entry and ends at the one
block that stops. -/
structure Program.Becomes (program : Program R) (graph : BlockGraph R) : Prop where
  entry : StandsAt program.labels program.entry graph.entry
  blocks : List.Forall₂ (Block.Becomes program.labels) program.blocks graph.blocks
  last (place : Nat) : place = graph.last ↔
    ∃ block, program.blocks[place]? = some block ∧ block.ending = .stop

theorem Statement.becomes_of_resolve {label : String} {statement : Statement R}
    {instruction : Instruction R} (resolved : statement.resolve label = .ok instruction) :
    statement.Becomes instruction := by
  cases statement with
  | gate name angles target controls =>
      obtain ⟨gate, found, resolved⟩ := except_bind_eq_ok resolved
      have spec := (Gate.of_name_eq_some_iff _ _ _).1 (resolve_gate_eq_ok found)
      split_ifs at resolved
      obtain rfl := Except.ok.inj resolved
      exact .gate spec.1 spec.2
  | measure qubits register =>
      unfold resolve at resolved
      simp only at resolved
      split_ifs at resolved
      obtain rfl := Except.ok.inj resolved
      exact .measure
  | binary symbol target left right =>
      obtain ⟨operator, found, resolved⟩ := except_bind_eq_ok resolved
      obtain rfl := Except.ok.inj resolved
      exact .binary ((BinaryOperator.of_symbol_eq_some_iff _ _).1 (resolve_symbol_eq_ok found))
  | unary symbol target source =>
      obtain ⟨operator, found, resolved⟩ := except_bind_eq_ok resolved
      obtain rfl := Except.ok.inj resolved
      rw [UnaryOperator.of_symbol_eq_lookup] at found
      exact .unary (resolve_symbol_eq_ok found)
  | alloc qubit dirty => obtain rfl := Except.ok.inj resolved; exact .alloc
  | free qubit dirty => obtain rfl := Except.ok.inj resolved; exact .free
  | dump qubits => obtain rfl := Except.ok.inj resolved; exact .dump
  | plugin name qubits arguments inverse controls =>
      obtain rfl := Except.ok.inj resolved; exact .plugin
  | constant register value => obtain rfl := Except.ok.inj resolved; exact .constant
  | move target source => obtain rfl := Except.ok.inj resolved; exact .move

theorem stands_at_of_found {labels : List String} (distinct : labels.Nodup) {label : String}
    {number : Nat} (found : labels.idxOf? label = some number) : StandsAt labels label number := by
  obtain ⟨bound, here, _⟩ := List.idxOf?_eq_some_iff.1 found
  have stands : labels[number]? = some label := by
    rw [List.getElem?_eq_getElem bound, here]
  intro place
  constructor
  · intro there
    have inside := (List.getElem?_eq_some_iff.1 there).1
    exact (List.getElem?_inj inside distinct).1 (there.trans stands.symm)
  · rintro rfl
    exact stands

theorem Block.ResolvesTo.becomes {labels : List String} (distinct : labels.Nodup) {block : Block R}
    {resolved : GraphBlock R} (resolves : block.ResolvesTo labels resolved) :
    block.Becomes labels resolved := by
  refine ⟨resolves.label_eq, resolves.instructions.imp fun _ _ => Statement.becomes_of_resolve, ?_⟩
  have ending := resolves.ending
  generalize block.ending = written at ending ⊢
  generalize resolved.successor = successor at ending ⊢
  cases ending with
  | jump found => exact .jump (stands_at_of_found distinct found)
  | branch foundNonzero foundZero =>
      exact .branch (stands_at_of_found distinct foundNonzero)
        (stands_at_of_found distinct foundZero)
  | stop => exact .stop

theorem Program.ResolvesTo.becomes {program : Program R} {graph : BlockGraph R}
    (resolves : program.ResolvesTo graph) (wellFormed : program.WellFormed) :
    program.Becomes graph := by
  have stopping {place : Nat} {block : Block R} (found : program.blocks[place]? = some block)
      (stops : block.ending = .stop) : place = graph.last := by
    obtain ⟨bound, rfl⟩ := List.getElem?_eq_some_iff.1 found
    have within : place < graph.blocks.length := by
      rw [← resolves.blocks.length_eq]
      exact bound
    have ending := (resolves.blocks.get bound within).ending
    simp only [List.get_eq_getElem, stops] at ending
    refine (resolves.last_iff (List.getElem?_eq_getElem within)).2 ?_
    generalize graph.blocks[place].successor = successor at ending ⊢
    cases ending
    rfl
  refine ⟨stands_at_of_found resolves.labels_distinct resolves.entry_found,
    resolves.blocks.imp fun _ _ => Block.ResolvesTo.becomes resolves.labels_distinct,
    fun place => ⟨fun last => ?_, fun ⟨block, found, stops⟩ => stopping found stops⟩⟩
  have some : 0 < stopCount program.blocks := by
    rw [wellFormed.stops]
    exact Nat.one_pos
  obtain ⟨block, inside, stops⟩ := List.countP_pos_iff.1 some
  obtain ⟨there, found⟩ := List.mem_iff_getElem?.1 inside
  rw [last, ← stopping found (of_decide_eq_true stops)]
  exact ⟨block, found, of_decide_eq_true stops⟩

/-- A program has a graph just if it is well-formed; otherwise the first violated check is reported.
The graph has the blocks of the program, each label replaced by the place of its block and each name
by the gate or operator that has it. -/
theorem Program.resolve_decides (program : Program R) :
    ((∃ graph, program.resolve = .ok graph) ↔ program.WellFormed) ∧
      (∀ error, program.resolve = .error error ↔ program.defects.head? = some error) ∧
      ∀ graph, program.resolve = .ok graph → program.Becomes graph :=
  ⟨program.resolves_iff, program.resolve_reports, fun graph resolved =>
    (resolves_to_of_ok resolved).becomes (program.resolves_iff.1 ⟨graph, resolved⟩)⟩

namespace Program

def tidy : Program Nat where
  entry := "main"
  blocks :=
    [⟨"end", [], .stop⟩,
      ⟨"main", [.gate "rz" [3] ⟨0⟩ [⟨1⟩], .binary "<<" ⟨0⟩ ⟨1⟩ ⟨2⟩, .unary "~" ⟨0⟩ ⟨1⟩],
        .branch ⟨0⟩ "main" "end"⟩]

/-- The labels and the entry are in order and little else is; the ending of the second block comes
first. -/
def faulty : Program Nat where
  entry := "main"
  blocks :=
    [⟨"end", [.measure [⟨0⟩] ⟨0⟩], .stop⟩,
      ⟨"main", [.gate "u3" [1] ⟨0⟩ [⟨0⟩], .gate "CCX" [] ⟨0⟩ [], .unary "sqrt" ⟨0⟩ ⟨1⟩],
        .branch ⟨0⟩ "nowhere" "neither"⟩,
      ⟨"again", [.binary "%" ⟨0⟩ ⟨0⟩ ⟨0⟩], .stop⟩]

theorem tidy_and_faulty :
    (∃ graph, tidy.resolve = .ok graph ∧ tidy.Becomes graph) ∧
      faulty.resolve = .error (.undefinedLabel "main" "nowhere") ∧
      faulty.defects = [.undefinedLabel "main" "nowhere", .undefinedLabel "main" "neither",
        .argumentCount "main" "U3" 3 1, .controlIsTarget "main" "u3" ⟨0⟩,
        .unknownOperation "main" "CCX", .unknownOperation "main" "sqrt",
        .duplicateEnd "end" "again", .unknownOperation "again" "%"] := by
  have listed : faulty.defects = [.undefinedLabel "main" "nowhere",
      .undefinedLabel "main" "neither", .argumentCount "main" "U3" 3 1,
      .controlIsTarget "main" "u3" ⟨0⟩, .unknownOperation "main" "CCX",
      .unknownOperation "main" "sqrt", .duplicateEnd "end" "again",
      .unknownOperation "again" "%"] := by decide +kernel
  have resolved : ∃ graph, tidy.resolve = .ok graph := by
    rw [tidy.resolve_decides.1, ← defects_eq_nil_iff]
    decide +kernel
  obtain ⟨graph, found⟩ := resolved
  refine ⟨⟨graph, found, tidy.resolve_decides.2.2 graph found⟩, ?_, listed⟩
  rw [faulty.resolve_decides.2.1, listed]
  rfl

end Program

end SparseQuantum
