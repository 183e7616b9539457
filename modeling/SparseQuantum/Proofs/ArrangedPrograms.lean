import Mathlib
import SparseQuantum.Program.Json
import SparseQuantum.Proofs.ArrangedMembers

/-!
# Rearranged programs

In a program the members of each object may come in any order and with further members between
them, and those that hold a default may be missing. The members of a statement are collected before
its kind says which of them are needed, so the kind may come last; of each member that is needed the
reader finds the one that was written, or its default. The choice of an ending is the exception: its
object has one member, and only the branch inside it is a record.
-/

namespace SparseQuantum

set_option autoImplicit false

open Json

/-! ### What may be left out -/

/-- The members that have a default. -/
def optionalNames : List String := ["statements", "dirty", "args", "ctrl", "adj"]

/-- Each default is a value that is not set or has no parts. -/
def Json.Value.isUnset : Value → Bool
  | .bool value => !value
  | .text value => value == ""
  | .array items => items.isEmpty
  | _ => false

def isDefault (name : String) (value : Value) : Bool := optionalNames.contains name && value.isUnset

/-! ### The ways to write a program -/

/-- A record may be rearranged, but each of its members is written as it is. -/
def PlainRecord : Ways := .Arranged isDefault fun _ => .plain

/-- An ending is written as it is, or as a branch whose members are rearranged. -/
inductive Ending.Rearranged : Ways where
  | plain {value : Value} : Rearranged value value.tree
  | branch {content : Value} {tree : Tree} (arranged : PlainRecord content tree) :
      Rearranged (.object [("branch", content)]) (.object (.ofList [("branch", tree)]))

def Statement.Rearranged : Ways := PlainRecord

def Block.memberWays : String → Ways
  | "statements" => .Listed Statement.Rearranged
  | "end" => Ending.Rearranged
  | _ => .plain

def Block.Rearranged : Ways := .Arranged isDefault memberWays

def Program.memberWays : String → Ways
  | "blocks" => .Listed Block.Rearranged
  | _ => .plain

def Program.Rearranged : Ways := .Arranged isDefault memberWays

theorem plain_record_whole : PlainRecord.AreWhole := Ways.arranged_whole fun _ => Ways.plain_whole

theorem plain_record_plain (members : List (String × Value)) :
    PlainRecord (.object members) (Value.object members).tree :=
  Ways.arranged_plain fun _ _ => rfl

/-! ### Identifiers -/

@[simp]
theorem QubitId.read_written (qubit : QubitId) : QubitId.read qubit.toJson.tree = .ok qubit := by
  rw [QubitId.read, QubitId.toJson, read_uint64_written]
  rfl

@[simp]
theorem RegisterId.read_written (register : RegisterId) :
    RegisterId.read register.toJson.tree = .ok register := by
  rw [RegisterId.read, RegisterId.toJson, read_uint64_written]
  rfl

@[simp]
theorem read_qubits_written (qubits : List QubitId) :
    readQubits (qubitsToJson qubits).tree = .ok qubits :=
  read_list_written qubits fun qubit _ => qubit.read_written

/-- A list whose parts hold floats is read if the floats are given back. -/
theorem read_parts_arranged {α : Type} {ways : Ways} {read : Tree → Except Flaw α}
    {write : α → Value} {angles : α → List Float} {items : List α} {tree : Tree}
    (listed : Ways.Listed ways (.array (items.map write)) tree)
    (back : ∀ angle ∈ items.flatMap angles, ReadsBack angle)
    (part : ∀ item, (∀ angle ∈ angles item, ReadsBack angle) →
      ∀ {tree : Tree}, ways (write item) tree → read tree = .ok item) :
    tree.readList read = .ok items := by
  apply read_list_arranged listed
  intro item inside tree written
  exact part item (fun angle known => back angle (List.mem_flatMap.2 ⟨item, inside, known⟩)) written

/-! ### Endings -/

namespace Ending

theorem rearranged_whole : Rearranged.AreWhole := by
  rintro value _ (_ | arranged)
  · exact value.tree_is_whole
  · refine Members.of_list_is_whole fun member inside => ?_
    rw [List.mem_singleton.1 inside]
    exact plain_record_whole _ _ arranged

def branchMembers (register : RegisterId) (onNonzero onZero : String) : List (String × Value) :=
  [("register", register.toJson), ("then", .text onNonzero), ("otherwise", .text onZero)]

theorem collects_branch (register : RegisterId) (onNonzero onZero : String) :
    Collects branchFields (fun met => ⟨partOf met "register" register,
      partOf met "then" onNonzero, partOf met "otherwise" onZero⟩) fun name tree =>
        ∃ value, (name, value) ∈ branchMembers register onNonzero onZero ∧
          Ways.plain value tree where
  isSet := by simp [branchFields]
  read := by
    simp [branchFields, branchMembers, Ways.plain, Value.tree, Tree.readText, bind, Except.bind]

theorem read_branch {register : RegisterId} {onNonzero onZero : String} {tree : Tree}
    (arranged : PlainRecord (.object (branchMembers register onNonzero onZero)) tree) :
    tree.readRecord branchFields ⟨none, none, none⟩ Branch.complete =
      .ok (.branch register onNonzero onZero) := by
  refine read_record_arranged arranged (collects_branch register onNonzero onZero) rfl
    (by simp [branchMembers]) fun met covered => ?_
  have all : "register" ∈ met ∧ "then" ∈ met ∧ "otherwise" ∈ met := by
    simpa [branchMembers, isDefault, optionalNames] using covered
  simp [Branch.complete, part_met all.1, part_met all.2.1, part_met all.2.2]

theorem read_rearranged (ending : Ending) {tree : Tree}
    (rearranged : Rearranged ending.toJson tree) : Ending.read tree = .ok ending := by
  have choice {register : RegisterId} {onNonzero onZero : String} {content : Tree}
      (arranged : PlainRecord (.object (branchMembers register onNonzero onZero)) content) :
      Ending.read (.object (.ofList [("branch", content)])) =
        .ok (.branch register onNonzero onZero) := by
    show (do
      let ending ← content.readRecord branchFields _ Branch.complete
      Members.closed.finish
      .ok ending) = _
    rw [read_branch arranged]
    rfl
  generalize written : ending.toJson = value at rearranged
  cases rearranged with
  | plain =>
      subst written
      cases ending with
      | jump label => rfl
      | stop => rfl
      | branch register onNonzero onZero => exact choice (plain_record_plain _)
  | branch arranged =>
      cases ending with
      | jump label => simp [toJson] at written
      | stop => cases written
      | branch register onNonzero onZero =>
          simp only [toJson, Value.object.injEq, List.cons.injEq, Prod.mk.injEq, true_and,
            and_true] at written
          subst written
          exact choice arranged

end Ending

/-! ### The members of a statement -/

namespace StatementFields

/-- The field is there with that value, or it is absent and the value is its default. -/
def Holds (fields : StatementFields) (name : String) (value : Value) : Prop :=
  fields.lookup name = some value.tree ∨ fields.lookup name = none ∧ isDefault name value = true

variable {fields : StatementFields}

theorem holds_of_mem {name : String} {value : Value}
    (only : ∀ tree, (name, tree) ∈ fields → tree = value.tree)
    (there : (∃ tree, (name, tree) ∈ fields) ∨ isDefault name value = true) :
    fields.Holds name value := by
  cases looked : fields.lookup name with
  | some tree =>
      obtain ⟨front, back, rfl, _⟩ := List.lookup_eq_some_iff.1 looked
      exact .inl (looked.trans (congrArg some (only tree (by simp))))
  | none =>
      refine .inr ⟨looked, there.resolve_left ?_⟩
      rintro ⟨tree, inside⟩
      simpa using List.lookup_eq_none_iff.1 looked _ inside

theorem need_held {α : Type} {name : String} {value : Value} {read : Tree → Except Flaw α}
    {result : α} (held : fields.Holds name value) (needed : isDefault name value = false)
    (back : read value.tree = .ok result) : fields.need name read = .ok result := by
  rcases held with found | ⟨_, default⟩
  · rw [need, found]
    exact back
  · exact absurd default (by simp [needed])

theorem get_held {α : Type} {name : String} {value : Value} {read : Tree → Except Flaw α}
    {default result : α} (held : fields.Holds name value) (back : read value.tree = .ok result)
    (same : isDefault name value = true → result = default) :
    fields.get name read default = .ok result := by
  rcases held with found | ⟨absent, unset⟩
  · rw [get, found]
    exact back
  · rw [get, absent, same unset]

theorem no_repeat_of_count {kind : StatementKind}
    (once : ∀ name ∈ kind.fieldNames, (fields.map Prod.fst).count name ≤ 1) :
    fields.noRepeat kind = true := by
  refine List.all_eq_true.2 fun name known => decide_eq_true ?_
  have single := once name known
  rwa [List.count, List.countP_map, List.countP_eq_length_filter] at single

end StatementFields

namespace Statement

def angles : Statement Float → List Float
  | gate _ angles _ _ => angles
  | _ => []

def statementKind : Statement Float → StatementKind
  | alloc .. => .alloc
  | free .. => .free
  | gate .. => .gate
  | measure .. => .measure
  | dump .. => .dump
  | plugin .. => .plugin
  | constant .. => .constant
  | move .. => .move
  | binary .. => .binary
  | unary .. => .unary

theorem kind_written (statement : Statement Float) :
    StatementKind.read (Value.text statement.kind).tree = .ok statement.statementKind := by
  cases statement <;> rfl

theorem field_names (statement : Statement Float) :
    statement.fields.map Prod.fst = statement.statementKind.fieldNames := by
  cases statement <;> rfl

theorem kind_is_no_field (kind : StatementKind) : ("kind" :: kind.fieldNames).Nodup := by
  cases kind <;> decide

theorem qubits_complete (qubits : List QubitId) : (qubitsToJson qubits).IsComplete :=
  Value.array_is_complete fun item inside => by
    obtain ⟨qubit, _, rfl⟩ := List.mem_map.1 inside
    exact Value.integer_is_complete (fits_uint64 _)

theorem angles_complete {angles : List Float} (back : ∀ angle ∈ angles, ReadsBack angle) :
    (Value.array (angles.map .real)).IsComplete :=
  Value.array_is_complete fun item inside => by
    obtain ⟨angle, known, rfl⟩ := List.mem_map.1 inside
    exact Value.real_is_complete (back angle known)

/-- What is written of a statement is complete. -/
theorem fields_complete (statement : Statement Float)
    (back : ∀ angle ∈ statement.angles, ReadsBack angle) :
    ∀ field ∈ statement.fields, field.2.IsComplete := by
  have qubit (qubit : QubitId) : qubit.toJson.IsComplete :=
    Value.integer_is_complete (fits_uint64 _)
  have register (register : RegisterId) : register.toJson.IsComplete :=
    Value.integer_is_complete (fits_uint64 _)
  have constant (value : Int64) : (Value.ofInt64 value).IsComplete :=
    Value.integer_is_complete (fits_int64 _)
  cases statement <;>
    simp only [fields, List.forall_mem_cons, List.not_mem_nil] <;>
    simp [qubit, register, constant, qubits_complete, Value.text_is_complete,
      Value.bool_is_complete]
  exact angles_complete back

/-- What is written of a statement is nested by one level, where it is a list. -/
theorem fields_shallow (statement : Statement Float) :
    ∀ field ∈ statement.fields, field.2.tree.depth ≤ 1 := by
  have list {α : Type} (write : α → Value) (flat : ∀ item, (write item).tree.depth = 0)
      (items : List α) : (Value.array (items.map write)).tree.depth ≤ 1 := by
    rw [Value.tree, Value.items_tree_eq, Tree.depth]
    have leaves : ∀ tree ∈ (items.map write).map Value.tree, tree.depth ≤ 0 := by simp [flat]
    have each := Items.depth_of_list leaves
    omega
  have qubits (qubits : List QubitId) : (qubitsToJson qubits).tree.depth ≤ 1 :=
    list QubitId.toJson (fun _ => rfl) qubits
  have angles (angles : List Float) : (Value.array (angles.map .real)).tree.depth ≤ 1 :=
    list Value.real (fun _ => by rw [Value.tree, floatTree]; split <;> rfl) angles
  have text (content : String) : (Value.text content).tree.depth ≤ 1 := Nat.zero_le 1
  have flag (value : Bool) : (Value.bool value).tree.depth ≤ 1 := Nat.zero_le 1
  have number (value : Int) : (Value.integer value).tree.depth ≤ 1 := Nat.zero_le 1
  cases statement <;> simp only [fields, List.forall_mem_cons, List.not_mem_nil] <;>
    simp [qubits, angles, text, flag, number, QubitId.toJson, RegisterId.toJson, Value.ofUInt64,
      Value.ofInt64]

/-- A member is kept if it is complete and no deeper than further members are. -/
theorem keep_shallow {tree : Tree} (shallow : tree.depth < Ways.nestingLimit)
    (complete : ∃ value, tree.value? = .ok value) : keep tree = .ok () := by
  obtain ⟨value, whole⟩ := complete
  have above : tree.depth ≤ deepestLevel - level := by
    have limit : Ways.nestingLimit ≤ deepestLevel - level := by decide
    omega
  rw [keep, Tree.within_of_depth above, whole]
  rfl

/-! ### The kind among the other members -/

/-- Members that are not the kind are collected as they are. -/
theorem collect_others (front back : List (String × Tree)) (kind : Option StatementKind)
    (before : StatementFields) (named : ∀ member ∈ front, member.1 ≠ "kind")
    (complete : ∀ member ∈ front, keep member.2 = .ok ()) :
    collect (.ofList (front ++ back)) kind before =
      collect (.ofList back) kind (front.reverse ++ before) := by
  induction front generalizing before with
  | nil => rfl
  | cons member front induction =>
      obtain ⟨name, tree⟩ := member
      obtain ⟨notKind, named⟩ := List.forall_mem_cons.1 named
      obtain ⟨whole, complete⟩ := List.forall_mem_cons.1 complete
      rw [List.cons_append, Members.ofList, collect]
      show (if name = "kind" then _ else do
        keep tree
        collect (.ofList (front ++ back)) kind ((name, tree) :: before)) = _
      rw [if_neg notKind, show keep tree = .ok () from whole]
      show collect _ _ _ = _
      rw [induction _ named complete, List.reverse_cons, List.append_assoc]
      rfl

/-- Wherever the kind stands, the other members are collected in their order. -/
theorem collect_kind {front back : List (String × Tree)} {tree : Tree} {kind : StatementKind}
    (read : StatementKind.read tree = .ok kind)
    (named : ∀ member ∈ front ++ back, member.1 ≠ "kind")
    (complete : ∀ member ∈ front ++ back, keep member.2 = .ok ()) :
    collect (.ofList (front ++ ("kind", tree) :: back)) none [] = .ok (kind, front ++ back) := by
  obtain ⟨namedFront, namedBack⟩ := List.forall_mem_append.1 named
  obtain ⟨completeFront, completeBack⟩ := List.forall_mem_append.1 complete
  have rest := collect_others back [] (some kind) front.reverse namedBack completeBack
  rw [List.append_nil] at rest
  rw [collect_others front _ none [] namedFront completeFront, List.append_nil, Members.ofList,
    collect]
  show (do collect _ (some (← StatementKind.read tree)) _) = _
  rw [read]
  show collect _ _ _ = _
  rw [rest, Members.ofList, collect, List.reverse_append, List.reverse_reverse,
    List.reverse_reverse]

/-! ### Statements from their members -/

end Statement

namespace StatementFields

variable {fields : StatementFields} {name : String}

theorem qubit_held {qubit : QubitId} (held : fields.Holds name qubit.toJson)
    (needed : isDefault name qubit.toJson = false) : fields.qubit name = .ok qubit :=
  need_held held needed qubit.read_written

theorem register_held {register : RegisterId} (held : fields.Holds name register.toJson)
    (needed : isDefault name register.toJson = false) : fields.register name = .ok register :=
  need_held held needed register.read_written

theorem text_held {content : String} (held : fields.Holds name (.text content))
    (needed : isDefault name (.text content) = false) :
    fields.need name Tree.readText = .ok content :=
  need_held held needed rfl

theorem qubits_held {qubits : List QubitId} (held : fields.Holds name (qubitsToJson qubits))
    (needed : isDefault name (qubitsToJson qubits) = false) :
    fields.need name readQubits = .ok qubits :=
  need_held held needed (read_qubits_written qubits)

theorem constant_held {value : Int64} (held : fields.Holds name (.ofInt64 value))
    (needed : isDefault name (.ofInt64 value) = false) :
    fields.need name Tree.readInt64 = .ok value :=
  need_held held needed (read_int64_written value)

theorem flag_held {value : Bool} (held : fields.Holds name (.bool value)) :
    fields.get name Tree.readBool false = .ok value :=
  get_held held rfl (by simp [isDefault, Value.isUnset])

theorem arguments_held {content : String} (held : fields.Holds name (.text content)) :
    fields.get name Tree.readText "" = .ok content :=
  get_held held rfl (by simp [isDefault, Value.isUnset])

theorem controls_held {qubits : List QubitId} (held : fields.Holds name (qubitsToJson qubits)) :
    fields.get name readQubits [] = .ok qubits :=
  get_held held (read_qubits_written qubits) (by simp [isDefault, Value.isUnset, qubitsToJson])

theorem angles_held {angles : List Float} (held : fields.Holds name (.array (angles.map .real)))
    (back : ∀ angle ∈ angles, ReadsBack angle) :
    fields.get name (Tree.readList Tree.readFloat) [] = .ok angles :=
  get_held held (read_list_written angles fun angle inside => (back angle inside).read)
    (by simp [isDefault, Value.isUnset])

/-- Fields that hold the members of a statement give the statement. -/
theorem statement_held (statement : Statement Float)
    (held : ∀ field ∈ statement.fields, fields.Holds field.1 field.2)
    (back : ∀ angle ∈ statement.angles, ReadsBack angle) :
    fields.statement statement.statementKind = .ok statement := by
  cases statement with
  | alloc qubit dirty | free qubit dirty =>
      obtain ⟨qubit, dirty, _⟩ := by simpa only [Statement.fields, List.forall_mem_cons] using held
      simp [Statement.statementKind, StatementFields.statement, qubit_held qubit rfl,
        flag_held dirty, bind, Except.bind]
  | gate name angles target controls =>
      obtain ⟨name, angles, target, controls, _⟩ := by
        simpa only [Statement.fields, List.forall_mem_cons] using held
      simp [Statement.statementKind, StatementFields.statement, text_held name rfl,
        angles_held angles back, qubit_held target rfl, controls_held controls, bind, Except.bind]
  | measure qubits register =>
      obtain ⟨qubits, register, _⟩ := by
        simpa only [Statement.fields, List.forall_mem_cons] using held
      simp [Statement.statementKind, StatementFields.statement, qubits_held qubits rfl,
        register_held register rfl, bind, Except.bind]
  | dump qubits =>
      obtain ⟨qubits, _⟩ := by simpa only [Statement.fields, List.forall_mem_cons] using held
      simp [Statement.statementKind, StatementFields.statement, qubits_held qubits rfl, bind,
        Except.bind]
  | plugin name qubits arguments inverse controls =>
      obtain ⟨name, qubits, arguments, inverse, controls, _⟩ := by
        simpa only [Statement.fields, List.forall_mem_cons] using held
      simp [Statement.statementKind, StatementFields.statement, text_held name rfl,
        qubits_held qubits rfl, arguments_held arguments, flag_held inverse,
        controls_held controls, bind, Except.bind]
  | constant register value =>
      obtain ⟨register, value, _⟩ := by
        simpa only [Statement.fields, List.forall_mem_cons] using held
      simp [Statement.statementKind, StatementFields.statement, register_held register rfl,
        constant_held value rfl, bind, Except.bind]
  | move target source =>
      obtain ⟨target, source, _⟩ := by
        simpa only [Statement.fields, List.forall_mem_cons] using held
      simp [Statement.statementKind, StatementFields.statement, register_held target rfl,
        register_held source rfl, bind, Except.bind]
  | binary symbol target left right =>
      obtain ⟨symbol, target, left, right, _⟩ := by
        simpa only [Statement.fields, List.forall_mem_cons] using held
      simp [Statement.statementKind, StatementFields.statement, text_held symbol rfl,
        register_held target rfl, register_held left rfl, register_held right rfl, bind,
        Except.bind]
  | unary symbol target source =>
      obtain ⟨symbol, target, source, _⟩ := by
        simpa only [Statement.fields, List.forall_mem_cons] using held
      simp [Statement.statementKind, StatementFields.statement, text_held symbol rfl,
        register_held target rfl, register_held source rfl, bind, Except.bind]

end StatementFields

/-! ### Rearranged statements -/

namespace Statement

def members (statement : Statement Float) : List (String × Value) :=
  ("kind", .text statement.kind) :: statement.fields

theorem members_distinct (statement : Statement Float) :
    (statement.members.map Prod.fst).Nodup := by
  rw [members, List.map_cons, statement.field_names]
  exact kind_is_no_field statement.statementKind

section Others

variable {statement : Statement Float} {kept added front rear : List (String × Tree)} {tree : Tree}
  (keeps : Ways.Keeps isDefault (fun _ => Ways.plain) statement.members kept)
  (fresh : ∀ member ∈ added, Ways.Fresh statement.members member)
  (order : (front ++ ("kind", tree) :: rear).Perm (kept ++ added))

include keeps fresh order

theorem others_once {name : String} (known : name ∈ statement.members.map Prod.fst) :
    ((front ++ rear).map Prod.fst).count name + (if name = "kind" then 1 else 0) ≤ 1 := by
  have once := Ways.written_once keeps fresh order statement.members_distinct known
  rw [List.map_append, List.map_cons, List.count_append, List.count_cons] at once
  rw [List.map_append, List.count_append]
  by_cases same : name = "kind"
  · simp only [same, beq_self_eq_true, if_true] at once ⊢
    omega
  · rw [if_neg same]
    rw [if_neg (by simpa using Ne.symm same)] at once
    omega

theorem others_named : ∀ member ∈ front ++ rear, member.1 ≠ "kind" := by
  intro member inside same
  have known : "kind" ∈ statement.members.map Prod.fst := List.mem_cons_self
  have once := others_once keeps fresh order known
  have listed : "kind" ∈ (front ++ rear).map Prod.fst := List.mem_map.2 ⟨member, inside, same⟩
  rw [if_pos rfl] at once
  have there := List.count_pos_iff.2 listed
  omega

theorem others_source {name : String} {other : Tree} (inside : (name, other) ∈ front ++ rear) :
    (∃ value, (name, value) ∈ statement.fields ∧ other = value.tree) ∨
      Ways.Fresh statement.members (name, other) := by
  have listed : (name, other) ∈ front ++ ("kind", tree) :: rear := by
    rcases List.mem_append.1 inside with before | behind
    · exact List.mem_append_left _ before
    · exact List.mem_append_right _ (List.mem_cons_of_mem _ behind)
  rcases Ways.written_source keeps fresh order listed with ⟨value, member, same⟩ | further
  · rcases List.mem_cons.1 member with kind | field
    · exact absurd (congrArg Prod.fst kind) (others_named keeps fresh order _ inside)
    · exact .inl ⟨value, field, same⟩
  · exact .inr further

theorem others_kept (back : ∀ angle ∈ statement.angles, ReadsBack angle) :
    ∀ member ∈ front ++ rear, keep member.2 = .ok () := by
  rintro ⟨name, other⟩ inside
  rcases others_source keeps fresh order inside with ⟨value, field, rfl⟩ | further
  · have shallow := statement.fields_shallow _ field
    exact keep_shallow (shallow.trans_lt (by decide)) (statement.fields_complete back _ field)
  · exact keep_shallow further.shallow (Tree.of_sound further.sound).2.2

theorem others_no_repeat :
    StatementFields.noRepeat (front ++ rear) statement.statementKind = true := by
  refine StatementFields.no_repeat_of_count fun name known => ?_
  rw [← statement.field_names] at known
  have once := others_once keeps fresh order (List.mem_cons_of_mem _ known)
  omega

theorem others_hold :
    ∀ field ∈ statement.fields, StatementFields.Holds (front ++ rear) field.1 field.2 := by
  rintro ⟨name, value⟩ field
  have member : (name, value) ∈ statement.members := List.mem_cons_of_mem _ field
  have notKind : name ≠ "kind" := by
    rintro rfl
    exact (List.nodup_cons.1 statement.members_distinct).1 (List.mem_map.2 ⟨_, field, rfl⟩)
  refine StatementFields.holds_of_mem (fun other inside => ?_) ?_
  · rcases others_source keeps fresh order inside with ⟨written, known, rfl⟩ | further
    · have same := List.inj_on_of_nodup_map statement.members_distinct
        (List.mem_cons_of_mem _ known) member rfl
      rw [(Prod.mk.inj same).2]
    · exact absurd (List.mem_map_of_mem member) further.name
  · refine (keeps.covers member).imp_left fun ⟨other, listed, _⟩ => ⟨other, ?_⟩
    have inside := order.mem_iff.2 (List.mem_append_left added listed)
    simpa [notKind] using inside

end Others

theorem rearranged_whole : Rearranged.AreWhole := plain_record_whole

theorem rearranged_plain (statement : Statement Float) :
    Rearranged statement.toJson statement.toJson.tree := plain_record_plain _

/-- A statement is read however its members are arranged, the kind among them. -/
theorem read_rearranged (statement : Statement Float)
    (back : ∀ angle ∈ statement.angles, ReadsBack angle) {tree : Tree}
    (rearranged : Rearranged statement.toJson tree) : Statement.read tree = .ok statement := by
  have written : PlainRecord (.object statement.members) tree := rearranged
  obtain ⟨keeps, fresh, order⟩ := written
  obtain ⟨_, kept, rfl⟩ := (keeps.covers List.mem_cons_self).resolve_right (by
    simp [isDefault, optionalNames])
  obtain ⟨front, rear, rfl⟩ := List.append_of_mem (order.mem_iff.2 (List.mem_append_left _ kept))
  have collected := collect_kind statement.kind_written (others_named keeps fresh order)
    (others_kept keeps fresh order back)
  have result := StatementFields.statement_held statement (others_hold keeps fresh order) back
  rw [Statement.read, collected]
  show StatementFields.complete _ _ = _
  rw [StatementFields.complete, if_pos (others_no_repeat keeps fresh order), result]
  rfl

end Statement

/-! ### Rearranged blocks -/

namespace Block

theorem rearranged_whole : Rearranged.AreWhole := by
  refine Ways.arranged_whole fun name => ?_
  unfold memberWays
  split
  · exact Ways.listed_whole Statement.rearranged_whole
  · exact Ending.rearranged_whole
  · exact Ways.plain_whole

theorem rearranged_plain (block : Block Float) :
    Rearranged block.toJson block.toJson.tree := by
  refine Ways.arranged_plain (List.forall_mem_cons.2 ⟨rfl, List.forall_mem_cons.2 ⟨?_,
    List.forall_mem_singleton.2 .plain⟩⟩)
  exact Ways.listed_plain (List.forall_mem_map.2 fun statement _ => statement.rearranged_plain)

def angles (block : Block Float) : List Float := block.statements.flatMap Statement.angles

theorem collects (block : Block Float) (back : ∀ angle ∈ block.angles, ReadsBack angle) :
    Collects fields (fun met => ⟨partOf met "label" block.label,
      partOf met "statements" block.statements, partOf met "end" block.ending⟩) fun name tree =>
        ∃ value, (name, value) ∈ [("label", Value.text block.label),
          ("statements", .array (block.statements.map Statement.toJson)),
          ("end", block.ending.toJson)] ∧ memberWays name value tree where
  isSet := by simp [fields]
  read := by
    have label {tree : Tree} (way : memberWays "label" (.text block.label) tree) :
        tree.readText = .ok block.label := by
      rw [show tree = _ from way]
      rfl
    have statements {tree : Tree} (way : memberWays "statements"
        (.array (block.statements.map Statement.toJson)) tree) :=
      read_parts_arranged way back Statement.read_rearranged
    have ending {tree : Tree} (way : memberWays "end" block.ending.toJson tree) :=
      block.ending.read_rearranged way
    simp +contextual [fields, label, statements, ending, bind, Except.bind]

theorem read_rearranged (block : Block Float) (back : ∀ angle ∈ block.angles, ReadsBack angle)
    {tree : Tree} (rearranged : Rearranged block.toJson tree) : Block.read tree = .ok block := by
  refine read_record_arranged rearranged (block.collects back) rfl (by simp) fun met covered => ?_
  have all : "label" ∈ met ∧ ("statements" ∈ met ∨ block.statements = []) ∧ "end" ∈ met := by
    simpa [isDefault, optionalNames, Value.isUnset] using covered
  obtain ⟨label, statements, ending⟩ := all
  have filled : (partOf met "statements" block.statements).getD [] = block.statements := by
    rcases statements with known | none
    · rw [part_met known, Option.getD_some]
    · rw [none, partOf]
      split <;> rfl
  simp [Parts.complete, part_met label, part_met ending, filled]

end Block

/-! ### Rearranged programs -/

namespace Program

theorem rearranged_whole : Rearranged.AreWhole := by
  refine Ways.arranged_whole fun name => ?_
  unfold memberWays
  split
  · exact Ways.listed_whole Block.rearranged_whole
  · exact Ways.plain_whole

theorem rearranged_plain (program : Program Float) :
    Rearranged program.toJson program.toJson.tree := by
  refine Ways.arranged_plain (List.forall_mem_cons.2 ⟨rfl, List.forall_mem_singleton.2 ?_⟩)
  exact Ways.listed_plain (List.forall_mem_map.2 fun block _ => block.rearranged_plain)

def angles (program : Program Float) : List Float :=
  program.blocks.flatMap fun block => block.statements.flatMap Statement.angles

theorem collects (program : Program Float) (back : ∀ angle ∈ program.angles, ReadsBack angle) :
    Collects fields (fun met => ⟨partOf met "entry" program.entry,
      partOf met "blocks" program.blocks⟩) fun name tree =>
        ∃ value, (name, value) ∈ [("entry", Value.text program.entry),
          ("blocks", .array (program.blocks.map Block.toJson))] ∧ memberWays name value tree where
  isSet := by simp [fields]
  read := by
    have entry {tree : Tree} (way : memberWays "entry" (.text program.entry) tree) :
        tree.readText = .ok program.entry := by
      rw [show tree = _ from way]
      rfl
    have blocks {tree : Tree} (way : memberWays "blocks"
        (.array (program.blocks.map Block.toJson)) tree) :=
      read_parts_arranged way back Block.read_rearranged
    simp +contextual [fields, entry, blocks, bind, Except.bind]

/-- A program is read however the members of its objects are arranged. -/
theorem read_rearranged (program : Program Float)
    (back : ∀ angle ∈ program.angles, ReadsBack angle) {tree : Tree}
    (rearranged : Rearranged program.toJson tree) : Program.read tree = .ok program := by
  refine read_record_arranged rearranged (program.collects back) rfl (by simp)
    fun met covered => ?_
  have all : "entry" ∈ met ∧ "blocks" ∈ met := by
    simpa [isDefault, optionalNames] using covered
  simp [Parts.complete, part_met all.1, part_met all.2]

end Program

end SparseQuantum
