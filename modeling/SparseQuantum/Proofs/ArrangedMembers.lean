import Mathlib
import SparseQuantum.Proofs.WrittenReaders

/-!
# Objects with their members rearranged

An object may be written with its members in any order, with further members between them, and
without those that hold their default. A record is read from such an object as from the plain one:
fields are found by their names, whatever nobody asked for is passed over if it is a value at all,
and the parts that have been collected depend on which fields have been met, not on their order.
-/

namespace SparseQuantum.Json

set_option autoImplicit false

/-! ### Values that nobody asks for -/

mutual

/-- A well-formed value: all escapes name characters, and no number is too large for a float. -/
def Tree.isSound : Tree → Bool
  | .null | .bool _ => true
  | .number .excessive => false
  | .number _ => true
  | .text (.ok _) => true
  | .text (.error _) => false
  | .array items => items.isSound
  | .object members => members.isSound
  | .missing _ | .broken _ | .brokenText _ => false

def Items.isSound : Items → Bool
  | .closed => true
  | .item value rest => value.isSound && rest.isSound
  | .broken _ | .dangling _ => false

def Members.isSound : Members → Bool
  | .closed => true
  | .member (.ok _) value rest => value.isSound && rest.isSound
  | .member (.error _) _ _ => false
  | .broken _ | .brokenName _ => false

end

mutual

def Tree.depth : Tree → Nat
  | .array items => items.depth + 1
  | .object members => members.depth + 1
  | _ => 0

def Items.depth : Items → Nat
  | .item value rest => max value.depth rest.depth
  | _ => 0

def Members.depth : Members → Nat
  | .member _ value rest => max value.depth rest.depth
  | _ => 0

end

mutual

/-- Nothing is cut off a value that is not nested deeper than the levels reach. -/
theorem Tree.within_of_depth : ∀ {levels : Nat} {tree : Tree}, tree.depth ≤ levels →
    tree.within levels = tree
  | levels + 1, .array items, shallow => by
      rw [Tree.depth] at shallow
      rw [Tree.within, Items.within_of_depth (by omega)]
  | levels + 1, .object members, shallow => by
      rw [Tree.depth] at shallow
      rw [Tree.within, Members.within_of_depth (by omega)]
  | 0, .array _, deep | 0, .object _, deep => absurd deep (by simp [Tree.depth])
  | levels, .null, _ | levels, .bool _, _ | levels, .number _, _ | levels, .text _, _
  | levels, .missing _, _ | levels, .broken _, _ | levels, .brokenText _, _ => by
      cases levels <;> rfl

theorem Items.within_of_depth : ∀ {levels : Nat} {items : Items}, items.depth ≤ levels →
    items.within levels = items
  | levels, .item value rest, shallow => by
      rw [Items.depth] at shallow
      rw [Items.within, Tree.within_of_depth (by omega), Items.within_of_depth (by omega)]
  | _, .closed, _ | _, .broken _, _ | _, .dangling _, _ => rfl

theorem Members.within_of_depth : ∀ {levels : Nat} {members : Members}, members.depth ≤ levels →
    members.within levels = members
  | levels, .member name value rest, shallow => by
      rw [Members.depth] at shallow
      rw [Members.within, Tree.within_of_depth (by omega), Members.within_of_depth (by omega)]
  | _, .closed, _ | _, .broken _, _ | _, .brokenName _, _ => rfl

end

mutual

/-- A well-formed value has no defect, can be passed over, and can be collected. -/
theorem Tree.of_sound : ∀ {tree : Tree}, tree.isSound = true →
    tree.isWhole = true ∧ tree.skip = .ok () ∧ ∃ value, tree.value? = .ok value
  | .null, _ | .bool _, _ | .number (.integer _), _ | .number (.real _), _ | .text (.ok _), _ =>
      ⟨rfl, rfl, _, rfl⟩
  | .array items, sound => by
      have soundItems : items.isSound = true := sound
      obtain ⟨whole, skipped, values, complete⟩ := Items.of_sound soundItems
      refine ⟨whole, skipped, .array values, ?_⟩
      rw [Tree.value?, complete]
      rfl
  | .object members, sound => by
      have soundMembers : members.isSound = true := sound
      obtain ⟨whole, skipped, values, complete⟩ := Members.of_sound soundMembers
      refine ⟨whole, skipped, .object values, ?_⟩
      rw [Tree.value?, complete]
      rfl
  | .number .excessive, sound | .text (.error _), sound | .missing _, sound | .broken _, sound
  | .brokenText _, sound => absurd sound (by simp [Tree.isSound])

theorem Items.of_sound : ∀ {items : Items}, items.isSound = true →
    items.isWhole = true ∧ items.skip = .ok () ∧ ∃ values, items.values? = .ok values
  | .closed, _ => ⟨rfl, rfl, _, rfl⟩
  | .item value rest, sound => by
      rw [Items.isSound, Bool.and_eq_true] at sound
      obtain ⟨whole, skipped, first, complete⟩ := Tree.of_sound sound.1
      obtain ⟨wholeRest, skippedRest, values, completeRest⟩ := Items.of_sound sound.2
      refine ⟨?_, ?_, first :: values, ?_⟩
      · rw [Items.isWhole, whole, wholeRest]
        rfl
      · rw [Items.skip, skipped]
        exact skippedRest
      · rw [Items.values?, complete, completeRest]
        rfl
  | .broken _, sound | .dangling _, sound => absurd sound (by simp [Items.isSound])

theorem Members.of_sound : ∀ {members : Members}, members.isSound = true →
    members.isWhole = true ∧ members.skip = .ok () ∧ ∃ values, members.values? = .ok values
  | .closed, _ => ⟨rfl, rfl, _, rfl⟩
  | .member (.ok name) value rest, sound => by
      rw [Members.isSound, Bool.and_eq_true] at sound
      obtain ⟨whole, skipped, first, complete⟩ := Tree.of_sound sound.1
      obtain ⟨wholeRest, skippedRest, values, completeRest⟩ := Members.of_sound sound.2
      refine ⟨?_, ?_, (name, first) :: values, ?_⟩
      · rw [Members.isWhole, whole, wholeRest]
        rfl
      · rw [Members.skip, skipped]
        exact skippedRest
      · rw [Members.values?, complete, completeRest]
        rfl
  | .member (.error _) _ _, sound | .broken _, sound | .brokenName _, sound =>
      absurd sound (by simp [Members.isSound])

end

/-- The largest float may stand there as a number, and a number of the next power of ten may not. -/
example :
    (Tree.number (Numeral.number ⟨false, [1], some [7, 9, 7, 6, 9, 3, 1, 3, 4, 8, 6, 2, 3, 1, 5, 7],
      some 308⟩)).isSound = true ∧
    (Tree.number (Numeral.number ⟨false, [1], none, some 309⟩)).isSound = false := by
  decide +kernel

/-! ### Trees from lists -/

def Items.ofList : List Tree → Items
  | [] => .closed
  | value :: rest => .item value (ofList rest)

def Members.ofList : List (String × Tree) → Members
  | [] => .closed
  | (name, value) :: rest => .member (.ok name) value (ofList rest)

theorem Value.items_tree_eq (items : List Value) :
    Value.itemsTree items = .ofList (items.map Value.tree) := by
  induction items with
  | nil => rfl
  | cons item items induction => rw [Value.itemsTree, induction, List.map_cons, Items.ofList]

theorem Value.members_tree_eq (members : List (String × Value)) :
    Value.membersTree members = .ofList (members.map fun member => (member.1, member.2.tree)) := by
  induction members with
  | nil => rfl
  | cons member members induction =>
      rw [Value.membersTree, induction, List.map_cons, Members.ofList]

theorem Items.depth_of_list {levels : Nat} {trees : List Tree}
    (shallow : ∀ tree ∈ trees, tree.depth ≤ levels) : (Items.ofList trees).depth ≤ levels := by
  induction trees with
  | nil => exact Nat.zero_le _
  | cons tree trees induction =>
      obtain ⟨first, rest⟩ := List.forall_mem_cons.1 shallow
      rw [Items.ofList, Items.depth]
      exact max_le first (induction rest)

theorem Items.of_list_is_whole {trees : List Tree} (whole : ∀ tree ∈ trees, tree.isWhole = true) :
    (Items.ofList trees).isWhole = true := by
  induction trees with
  | nil => rfl
  | cons tree trees induction =>
      obtain ⟨first, rest⟩ := List.forall_mem_cons.1 whole
      rw [Items.ofList, Items.isWhole, first, induction rest]
      rfl

theorem Members.of_list_is_whole {members : List (String × Tree)}
    (whole : ∀ member ∈ members, member.2.isWhole = true) :
    (Members.ofList members).isWhole = true := by
  induction members with
  | nil => rfl
  | cons member members induction =>
      obtain ⟨first, rest⟩ := List.forall_mem_cons.1 whole
      rw [Members.ofList, Members.isWhole, first, induction rest]
      rfl

/-! ### The ways to write a value -/

/-- The trees that stand for a value. -/
abbrev Ways := Value → Tree → Prop

namespace Ways

def plain : Ways := fun value tree => tree = value.tree

inductive Listed (ways : Ways) : Ways where
  | items {items : List Value} {trees : List Tree} (each : List.Forall₂ ways items trees) :
      Listed ways (.array items) (.array (.ofList trees))

/-- The members of an object that are written, each in one of its ways, and in their old order.
Those that hold a default may be missing. -/
inductive Keeps (isDefault : String → Value → Bool) (ways : String → Ways) :
    List (String × Value) → List (String × Tree) → Prop where
  | nil : Keeps isDefault ways [] []
  | kept {name : String} {value : Value} {tree : Tree} {members : List (String × Value)}
      {trees : List (String × Tree)} (written : ways name value tree)
      (others : Keeps isDefault ways members trees) :
      Keeps isDefault ways ((name, value) :: members) ((name, tree) :: trees)
  | omitted {name : String} {value : Value} {members : List (String × Value)}
      {trees : List (String × Tree)} (default : isDefault name value = true)
      (others : Keeps isDefault ways members trees) :
      Keeps isDefault ways ((name, value) :: members) trees

/-- How deeply a further value may be nested. Readers may refuse what is nested much deeper. -/
def nestingLimit : Nat := 100

/-- A further member: its name is none of the object's, and its value is well-formed. -/
structure Fresh (members : List (String × Value)) (member : String × Tree) : Prop where
  name : member.1 ∉ members.map Prod.fst
  sound : member.2.isSound = true
  shallow : member.2.depth < nestingLimit

/-- An object with its members in any order and with further members between them. -/
inductive Arranged (isDefault : String → Value → Bool) (ways : String → Ways) : Ways where
  | members {members : List (String × Value)} {kept added written : List (String × Tree)}
      (keeps : Keeps isDefault ways members kept) (fresh : ∀ member ∈ added, Fresh members member)
      (order : written.Perm (kept ++ added)) :
      Arranged isDefault ways (.object members) (.object (.ofList written))

variable {isDefault : String → Value → Bool} {ways : String → Ways}

/-! ### What is written of an object -/

namespace Keeps

variable {members : List (String × Value)} {kept : List (String × Tree)}

theorem names (keeps : Keeps isDefault ways members kept) :
    (kept.map Prod.fst).Sublist (members.map Prod.fst) := by
  induction keeps with
  | nil => exact .slnil
  | kept written others induction => exact induction.cons_cons _
  | omitted default others induction => exact induction.cons _

theorem covers (keeps : Keeps isDefault ways members kept) {name : String} {value : Value}
    (member : (name, value) ∈ members) :
    (∃ tree, (name, tree) ∈ kept ∧ ways name value tree) ∨ isDefault name value = true := by
  induction keeps with
  | nil => exact absurd member (by simp)
  | kept written others induction =>
      rcases List.mem_cons.1 member with same | later
      · obtain ⟨rfl, rfl⟩ := Prod.mk.inj same
        exact .inl ⟨_, List.mem_cons_self, written⟩
      · exact (induction later).imp_left fun ⟨tree, listed, known⟩ =>
          ⟨tree, List.mem_cons_of_mem _ listed, known⟩
  | omitted default others induction =>
      rcases List.mem_cons.1 member with same | later
      · obtain ⟨rfl, rfl⟩ := Prod.mk.inj same
        exact .inr default
      · exact induction later

/-- What is written stands for a member. -/
theorem source (keeps : Keeps isDefault ways members kept) {name : String} {tree : Tree}
    (listed : (name, tree) ∈ kept) : ∃ value, (name, value) ∈ members ∧ ways name value tree := by
  induction keeps with
  | nil => exact absurd listed (by simp)
  | kept written others induction =>
      rcases List.mem_cons.1 listed with same | later
      · obtain ⟨rfl, rfl⟩ := Prod.mk.inj same
        exact ⟨_, List.mem_cons_self, written⟩
      · obtain ⟨value, member, known⟩ := induction later
        exact ⟨value, List.mem_cons_of_mem _ member, known⟩
  | omitted default others induction =>
      obtain ⟨value, member, known⟩ := induction listed
      exact ⟨value, List.mem_cons_of_mem _ member, known⟩

theorem all {members : List (String × Value)} {trees : List (String × Tree)}
    (each : List.Forall₂ (fun member tree => tree.1 = member.1 ∧ ways member.1 member.2 tree.2)
      members trees) : Keeps isDefault ways members trees := by
  induction each with
  | nil => exact .nil
  | @cons member tree _ _ first rest induction =>
      obtain ⟨_, value⟩ := member
      obtain ⟨_, written⟩ := tree
      obtain ⟨rfl, known⟩ := first
      exact .kept known induction

end Keeps

section Order

variable {members : List (String × Value)} {kept added written : List (String × Tree)}
  (keeps : Keeps isDefault ways members kept) (fresh : ∀ member ∈ added, Fresh members member)
  (order : written.Perm (kept ++ added))

include keeps fresh order

theorem known_perm :
    ((written.map Prod.fst).filter (· ∈ members.map Prod.fst)).Perm (kept.map Prod.fst) := by
  have known : (kept.map Prod.fst).filter (· ∈ members.map Prod.fst) = kept.map Prod.fst :=
    List.filter_eq_self.2 fun name listed => decide_eq_true (keeps.names.subset listed)
  have unknown : (added.map Prod.fst).filter (· ∈ members.map Prod.fst) = [] := by
    refine List.filter_eq_nil_iff.2 fun name listed => ?_
    obtain ⟨member, source, rfl⟩ := List.mem_map.1 listed
    simpa using (fresh member source).name
  have all := (order.map Prod.fst).filter (· ∈ members.map Prod.fst)
  rw [List.map_append, List.filter_append, known, unknown, List.append_nil] at all
  exact all

/-- A member that is written stands for one of the object or is a further one. -/
theorem written_source {name : String} {tree : Tree} (listed : (name, tree) ∈ written) :
    (∃ value, (name, value) ∈ members ∧ ways name value tree) ∨ Fresh members (name, tree) := by
  rcases List.mem_append.1 (order.mem_iff.1 listed) with known | unknown
  · exact .inl (keeps.source known)
  · exact .inr (fresh _ unknown)

theorem written_once (distinct : (members.map Prod.fst).Nodup) {name : String}
    (known : name ∈ members.map Prod.fst) : (written.map Prod.fst).count name ≤ 1 := by
  have once := (known_perm keeps fresh order).nodup_iff.2 (keeps.names.nodup distinct)
  have single := List.nodup_iff_count_le_one.1 once name
  rwa [List.count_filter (by simpa using known)] at single

end Order

/-! ### Trees without defect -/

def AreWhole (ways : Ways) : Prop := ∀ value tree, ways value tree → tree.isWhole = true

theorem plain_whole : AreWhole plain := by
  rintro value _ rfl
  exact value.tree_is_whole

theorem listed_whole {ways : Ways} (each : ways.AreWhole) : (Listed ways).AreWhole := by
  rintro _ _ ⟨listed⟩
  refine Items.of_list_is_whole fun tree inside => ?_
  obtain ⟨place, below, rfl⟩ := List.getElem_of_mem inside
  exact each _ _ (listed.get (by rw [listed.length_eq]; exact below) below)

theorem arranged_whole (each : ∀ name, (ways name).AreWhole) :
    (Arranged isDefault ways).AreWhole := by
  rintro _ _ ⟨keeps, fresh, order⟩
  refine Members.of_list_is_whole ?_
  rintro ⟨name, tree⟩ listed
  rcases written_source keeps fresh order listed with ⟨value, _, known⟩ | further
  · exact each name value tree known
  · exact (Tree.of_sound further.sound).1

/-! ### Nothing need be changed -/

theorem listed_plain {ways : Ways} {items : List Value}
    (each : ∀ item ∈ items, ways item item.tree) :
    Listed ways (.array items) (Value.array items).tree := by
  rw [Value.tree, Value.items_tree_eq]
  exact .items (List.forall₂_map_right_iff.2 (List.forall₂_same.2 each))

theorem arranged_plain {members : List (String × Value)}
    (each : ∀ member ∈ members, ways member.1 member.2 member.2.tree) :
    Arranged isDefault ways (.object members) (Value.object members).tree := by
  have keeps : Keeps isDefault ways members
      (members.map fun member => (member.1, member.2.tree)) :=
    .all (List.forall₂_map_right_iff.2 (List.forall₂_same.2 fun member inside =>
      ⟨rfl, each member inside⟩))
  rw [Value.tree, Value.members_tree_eq]
  exact .members keeps (fun member inside => absurd inside List.not_mem_nil)
    (by rw [List.append_nil])

end Ways

/-! ### Reading lists -/

/-- A list is read from its items in whatever ways they are written. -/
theorem read_list_arranged {α : Type} {ways : Ways} {read : Tree → Except Flaw α}
    {write : α → Value} {items : List α} {tree : Tree}
    (listed : Ways.Listed ways (.array (items.map write)) tree)
    (back : ∀ item ∈ items, ∀ tree, ways (write item) tree → read tree = .ok item) :
    tree.readList read = .ok items := by
  obtain ⟨each⟩ := listed
  rw [List.forall₂_map_left_iff] at each
  show Items.readAll read (.ofList _) = _
  induction each with
  | nil => rfl
  | cons first rest induction =>
      rw [Items.ofList, Items.readAll, back _ List.mem_cons_self _ first]
      show (do .ok (_ :: (← (Items.ofList _).readAll read))) = _
      rw [induction fun item inside => back item (List.mem_cons_of_mem _ inside)]
      rfl

/-! ### Reading records -/

def partOf {α : Type} (met : List String) (name : String) (value : α) : Option α :=
  if name ∈ met then some value else none

@[simp]
theorem part_is_some {α : Type} (met : List String) (name : String) (value : α) :
    (partOf met name value).isSome = decide (name ∈ met) := by
  unfold partOf
  split <;> simp_all

@[simp]
theorem part_cons {α : Type} (met : List String) (name other : String) (value : α) :
    partOf (other :: met) name value =
      if name = other then some value else partOf met name value := by
  unfold partOf
  by_cases same : name = other <;> simp [same]

theorem part_met {α : Type} {met : List String} {name : String} (known : name ∈ met) (value : α) :
    partOf met name value = some value := if_pos known

section Records

variable {Parts α : Type}

/-- The parts that have been collected are told by the names of the fields that have been met: a
field is set once its name has been met, and reads what it accepts. -/
structure Collects (fields : List (RecordField Parts)) (parts : List String → Parts)
    (accepts : String → Tree → Prop) : Prop where
  isSet : ∀ field ∈ fields, ∀ met, field.isSet (parts met) = decide (field.name ∈ met)
  read : ∀ field ∈ fields, ∀ met tree, accepts field.name tree →
    field.read tree (parts met) = .ok (parts (field.name :: met))

variable {fields : List (RecordField Parts)} {parts : List String → Parts}
  {accepts : String → Tree → Prop}

/-- A field is read when its name is met for the first time. -/
theorem fill_field {field : RecordField Parts} {name : String} {value : Tree} {before after : Parts}
    (found : fields.find? (·.name == name) = some field) (unset : field.isSet before = false)
    (read : field.read value before = .ok after) (rest : Members) :
    (Members.member (.ok name) value rest).fill fields before = rest.fill fields after := by
  rw [Members.fill]
  simp [found, unset, read, bind, Except.bind]

theorem fill_other {name : String} {value : Tree}
    (absent : fields.find? (·.name == name) = none) (skipped : value.skip = .ok ())
    (rest : Members) (before : Parts) :
    (Members.member (.ok name) value rest).fill fields before = rest.fill fields before := by
  rw [Members.fill]
  simp [absent, skipped, bind, Except.bind]

/-- Fields are met in the order in which they are written, and everything else is passed over. -/
theorem fill_of_list (collects : Collects fields parts accepts) (written : List (String × Tree))
    (met : List String)
    (known : ∀ member ∈ written, member.1 ∈ fields.map (·.name) → accepts member.1 member.2)
    (unknown : ∀ member ∈ written, member.1 ∉ fields.map (·.name) → member.2.skip = .ok ())
    (once : (met ++ (written.map Prod.fst).filter (· ∈ fields.map (·.name))).Nodup) :
    ∃ after, (Members.ofList written).fill fields (parts met) = .ok (parts after) ∧
      after.Perm (met ++ (written.map Prod.fst).filter (· ∈ fields.map (·.name))) := by
  induction written generalizing met with
  | nil => exact ⟨met, rfl, by simp⟩
  | cons member written induction =>
      obtain ⟨name, tree⟩ := member
      obtain ⟨knownHere, knownLater⟩ := List.forall_mem_cons.1 known
      obtain ⟨unknownHere, unknownLater⟩ := List.forall_mem_cons.1 unknown
      rw [Members.ofList]
      cases found : fields.find? (·.name == name) with
      | some field =>
          have listed := List.mem_of_find?_eq_some found
          have same : field.name = name := by simpa using List.find?_some found
          have inside : name ∈ fields.map (·.name) := List.mem_map.2 ⟨field, listed, same⟩
          rw [List.map_cons, List.filter_cons_of_pos (by simpa using inside)] at once ⊢
          have first : name ∉ met := by
            intro again
            exact (List.nodup_append.1 once).2.2 name again name List.mem_cons_self rfl
          have step := collects.read field listed met tree (same ▸ knownHere inside)
          obtain ⟨after, filled, perm⟩ := induction (name :: met) knownLater unknownLater
            ((List.perm_middle.nodup_iff).1 once)
          have unset : field.isSet (parts met) = false := by
            rw [collects.isSet field listed, same, decide_eq_false first]
          rw [same] at step
          refine ⟨after, ?_, perm.trans List.perm_middle.symm⟩
          rw [fill_field found unset step, filled]
      | none =>
          have outside : name ∉ fields.map (·.name) := by
            rintro inside
            obtain ⟨field, listed, same⟩ := List.mem_map.1 inside
            exact List.find?_eq_none.1 found field listed (by simpa using same)
          rw [List.map_cons, List.filter_cons_of_neg (by simpa using outside)] at once ⊢
          obtain ⟨after, filled, perm⟩ := induction met knownLater unknownLater once
          refine ⟨after, ?_, perm⟩
          rw [fill_other found (unknownHere outside), filled]

/-- A record is read from its members however they are arranged, as long as the parts are complete
without those that may be left out. -/
theorem read_record_arranged {isDefault : String → Value → Bool} {ways : String → Ways}
    {members : List (String × Value)} {tree : Tree} {complete : Parts → Option α} {result : α}
    (arranged : Ways.Arranged isDefault ways (.object members) tree)
    (collects : Collects fields parts fun name tree =>
      ∃ value, (name, value) ∈ members ∧ ways name value tree)
    (names : fields.map (·.name) = members.map Prod.fst) (distinct : (members.map Prod.fst).Nodup)
    (completed : ∀ met, (∀ member ∈ members,
      member.1 ∈ met ∨ isDefault member.1 member.2 = true) → complete (parts met) = some result) :
    tree.readRecord fields (parts []) complete = .ok result := by
  cases arranged with
  | @members _ kept added written keeps fresh order =>
      have perm := Ways.known_perm keeps fresh order
      obtain ⟨after, filled, met⟩ := fill_of_list collects written []
        (by
          rintro ⟨name, tree⟩ listed inside
          rw [names] at inside
          exact (Ways.written_source keeps fresh order listed).resolve_right fun further =>
            further.name inside)
        (by
          rintro ⟨name, tree⟩ listed outside
          rw [names] at outside
          rcases Ways.written_source keeps fresh order listed with ⟨value, member, _⟩ | further
          · exact absurd (List.mem_map.2 ⟨_, member, rfl⟩) outside
          · exact (Tree.of_sound further.sound).2.1)
        (by
          rw [List.nil_append, names, perm.nodup_iff]
          exact keeps.names.nodup distinct)
      rw [List.nil_append, names] at met
      have whole := completed after fun _ member => by
        refine (keeps.covers member).imp_left fun ⟨tree, listed, _⟩ => ?_
        exact (met.trans perm).mem_iff.2 (List.mem_map.2 ⟨_, listed, rfl⟩)
      rw [Tree.readRecord, filled]
      simp [whole, bind, Except.bind]

end Records

end SparseQuantum.Json
