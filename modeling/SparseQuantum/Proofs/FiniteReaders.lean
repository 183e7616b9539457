import SparseQuantum.Proofs.FiniteNumbers
import SparseQuantum.Proofs.ResolvedGraphs

/-!
# Readers of finite numbers

Every number of a text's tokens is finite, the tree that is taken of them holds no other, and so a
reader finds none. What a reader gives is told by a property of its values, which lists and records
carry on: a record has it as soon as each of its fields keeps it of the parts collected so far.
-/

namespace SparseQuantum.Json

set_option autoImplicit false

/-! ### Tokens -/

def Number.IsFinite : Number → Prop
  | .real value => value.isFinite = true
  | _ => True

def Token.IsFinite : Token → Prop
  | .number value => value.IsFinite
  | _ => True

theorem Numeral.is_finite (numeral : Numeral) : numeral.number.IsFinite := by
  cases known : numeral.number with
  | real value => exact number_is_finite known
  | _ => trivial

theorem Token.first_is_finite (character : Char) (rest : List Char) :
    (first character rest).1.IsFinite := by
  unfold first
  simp only
  split <;> first | trivial | skip
  all_goals try (split <;> trivial)
  split
  · split
    · exact Numeral.is_finite _
    · trivial
  · trivial

theorem Token.scan_up_to_is_finite (count : Nat) (input : List Char) :
    ∀ token ∈ scanUpTo count input, token.IsFinite := by
  induction count generalizing input with
  | zero => exact List.forall_mem_nil _
  | succ count induction =>
      unfold scanUpTo
      split
      · exact List.forall_mem_nil _
      · split
        · exact List.forall_mem_cons.2 ⟨trivial, induction _⟩
        · exact List.forall_mem_singleton.2 trivial
      · next character rest _ _ =>
          have finite := first_is_finite character rest
          split
          · next reached =>
              rw [reached] at finite
              exact List.forall_mem_cons.2 ⟨finite, induction _⟩
          · next reached =>
              rw [reached] at finite
              exact List.forall_mem_singleton.2 finite

/-! ### Trees -/

mutual

def Tree.IsFinite : Tree → Prop
  | .number value => value.IsFinite
  | .array items => items.IsFinite
  | .object members => members.IsFinite
  | _ => True

def Items.IsFinite : Items → Prop
  | .item value rest => value.IsFinite ∧ rest.IsFinite
  | _ => True

def Members.IsFinite : Members → Prop
  | .member _ value rest => value.IsFinite ∧ rest.IsFinite
  | _ => True

end

structure TakesFinite (budget : Nat) : Prop where
  tree : ∀ tokens, (∀ token ∈ tokens, token.IsFinite) → (Tree.take budget tokens).1.IsFinite ∧
    ∀ token ∈ (Tree.take budget tokens).2, token.IsFinite
  items : ∀ tokens, (∀ token ∈ tokens, token.IsFinite) → (Items.take budget tokens).1.IsFinite ∧
    ∀ token ∈ (Items.take budget tokens).2, token.IsFinite
  members : ∀ name tokens, (∀ token ∈ tokens, token.IsFinite) →
    (Members.take budget name tokens).1.IsFinite ∧
      ∀ token ∈ (Members.take budget name tokens).2, token.IsFinite

theorem TakesFinite.next_tree {budget : Nat} (takes : TakesFinite budget) (tokens : List Token)
    (finite : ∀ token ∈ tokens, token.IsFinite) :
    (Tree.take (budget + 1) tokens).1.IsFinite ∧
      ∀ token ∈ (Tree.take (budget + 1) tokens).2, token.IsFinite := by
  cases tokens with
  | nil => simp [Tree.take, Tree.IsFinite]
  | cons token rest =>
      obtain ⟨here, others⟩ := List.forall_mem_cons.1 finite
      unfold Tree.take
      cases token with
      | openArray =>
          simp only
          split
          · exact ⟨trivial, (List.forall_mem_cons.1 others).2⟩
          · exact ⟨trivial, List.forall_mem_nil _⟩
          · exact takes.items _ others
      | openObject =>
          simp only
          split
          · exact ⟨trivial, (List.forall_mem_cons.1 others).2⟩
          · exact ⟨trivial, List.forall_mem_nil _⟩
          · exact takes.members _ _ (List.forall_mem_cons.1 others).2
          · exact ⟨trivial, List.forall_mem_nil _⟩
          · exact ⟨trivial, List.forall_mem_nil _⟩
      | number value => exact ⟨here, others⟩
      | null => exact ⟨trivial, others⟩
      | bool value => exact ⟨trivial, others⟩
      | text content => exact ⟨trivial, others⟩
      | _ => exact ⟨trivial, List.forall_mem_nil _⟩

theorem TakesFinite.next_items {budget : Nat} (takes : TakesFinite budget) (tokens : List Token)
    (finite : ∀ token ∈ tokens, token.IsFinite) :
    (Items.take (budget + 1) tokens).1.IsFinite ∧
      ∀ token ∈ (Items.take (budget + 1) tokens).2, token.IsFinite := by
  have taken := takes.tree tokens finite
  rw [Items.take]
  simp only
  split <;> rename_i left <;> rw [left] at taken
  · exact ⟨⟨taken.1, trivial⟩, (List.forall_mem_cons.1 taken.2).2⟩
  · exact ⟨⟨taken.1, trivial⟩, List.forall_mem_nil _⟩
  · exact ⟨⟨taken.1, trivial⟩, List.forall_mem_nil _⟩
  · exact ⟨⟨taken.1, trivial⟩, List.forall_mem_nil _⟩
  · have further := takes.items _ (List.forall_mem_cons.1 taken.2).2
    exact ⟨⟨taken.1, further.1⟩, further.2⟩
  · exact ⟨⟨taken.1, trivial⟩, List.forall_mem_nil _⟩

theorem TakesFinite.next_members {budget : Nat} (takes : TakesFinite budget)
    (name : Except Flaw String) (tokens : List Token)
    (finite : ∀ token ∈ tokens, token.IsFinite) :
    (Members.take (budget + 1) name tokens).1.IsFinite ∧
      ∀ token ∈ (Members.take (budget + 1) name tokens).2, token.IsFinite := by
  unfold Members.take
  split
  · exact ⟨⟨trivial, trivial⟩, List.forall_mem_nil _⟩
  · next rest =>
      have taken := takes.tree _ (List.forall_mem_cons.1 finite).2
      simp only
      split <;> rename_i left <;> rw [left] at taken
      · exact ⟨⟨taken.1, trivial⟩, (List.forall_mem_cons.1 taken.2).2⟩
      · exact ⟨⟨taken.1, trivial⟩, List.forall_mem_nil _⟩
      · exact ⟨⟨taken.1, trivial⟩, List.forall_mem_nil _⟩
      · next later _ =>
        have further := takes.members later _
          (List.forall_mem_cons.1 (List.forall_mem_cons.1 taken.2).2).2
        exact ⟨⟨taken.1, further.1⟩, further.2⟩
      · exact ⟨⟨taken.1, trivial⟩, List.forall_mem_nil _⟩
      · exact ⟨⟨taken.1, trivial⟩, List.forall_mem_nil _⟩
      · exact ⟨⟨taken.1, trivial⟩, List.forall_mem_nil _⟩
  · exact ⟨⟨trivial, trivial⟩, List.forall_mem_nil _⟩

theorem takes_finite (budget : Nat) : TakesFinite budget := by
  induction budget with
  | zero =>
      exact ⟨fun tokens finite => by simp [Tree.take, Tree.IsFinite],
        fun tokens finite => by simp [Items.take, Items.IsFinite],
        fun name tokens finite => by simp [Members.take, Members.IsFinite]⟩
  | succ budget takes => exact ⟨takes.next_tree, takes.next_items, takes.next_members⟩

theorem Document.of_text_is_finite (text : String) : (Document.ofText text).tree.IsFinite :=
  ((takes_finite (3 * (Token.scan text.toList).length + 1)).tree (Token.scan text.toList)
    (Token.scan_up_to_is_finite _ _)).1

/-! ### Readers -/

def Yields {α : Type} (read : Tree → Except Flaw α) (property : α → Prop) : Prop :=
  ∀ tree value, tree.IsFinite → read tree = .ok value → property value

theorem Yields.document {α : Type} {read : Tree → Except Flaw α} {property : α → Prop}
    (yields : Yields read property) {text : String} {value : α}
    (done : readDocument read text = .ok value) : property value := by
  obtain ⟨found, here, done⟩ := except_bind_eq_ok done
  split_ifs at done
  obtain rfl := Except.ok.inj done
  exact yields _ _ (Document.of_text_is_finite text) here

theorem read_float_yields : Yields Tree.readFloat fun value => value.isFinite = true := by
  intro tree value finite done
  unfold Tree.readFloat at done
  split at done
  · obtain rfl := Except.ok.inj done
    exact Tree.integer_is_finite _
  · obtain rfl := Except.ok.inj done
    exact finite
  · exact absurd done (by simp)

section Lists

variable {α : Type} {read : Tree → Except Flaw α} {property : α → Prop}

theorem Yields.all (yields : Yields read property) (items : Items) (finite : items.IsFinite)
    {values : List α} (done : items.readAll read = .ok values) :
    ∀ value ∈ values, property value := by
  cases items with
  | closed =>
      obtain rfl := Except.ok.inj done
      exact List.forall_mem_nil _
  | item tree rest =>
      rw [Items.readAll] at done
      obtain ⟨value, here, done⟩ := except_bind_eq_ok done
      obtain ⟨others, further, done⟩ := except_bind_eq_ok done
      obtain rfl := Except.ok.inj done
      exact List.forall_mem_cons.2
        ⟨yields tree value finite.1 here, yields.all rest finite.2 further⟩
  | broken flaw => exact absurd done (by simp [Items.readAll])
  | dangling flaw => exact absurd done (by simp [Items.readAll])

theorem Yields.list (yields : Yields read property) :
    Yields (Tree.readList read) fun values => ∀ value ∈ values, property value := by
  intro tree values finite done
  cases tree with
  | array items => exact yields.all items finite done
  | _ => exact absurd done (by simp [Tree.readList])

end Lists

theorem read_floats_yields (count : Nat) (items : Items) (finite : items.IsFinite)
    {values : List Float} {rest : Items} (done : items.readFloats count = .ok (values, rest)) :
    ∀ value ∈ values, value.isFinite = true := by
  induction count generalizing items values rest with
  | zero =>
      obtain ⟨rfl, rfl⟩ := Prod.mk.inj (Except.ok.inj done)
      exact List.forall_mem_nil _
  | succ count induction =>
      obtain ⟨next, found, done⟩ := except_bind_eq_ok done
      cases items with
      | item tree others =>
          obtain rfl := Except.ok.inj found
          obtain ⟨value, here, done⟩ := except_bind_eq_ok done
          obtain ⟨further, onward, done⟩ := except_bind_eq_ok done
          obtain ⟨rfl, rfl⟩ := Prod.mk.inj (Except.ok.inj done)
          exact List.forall_mem_cons.2
            ⟨read_float_yields tree value finite.1 here, induction others finite.2 onward⟩
      | closed =>
          obtain rfl := Except.ok.inj found
          exact absurd done (by simp)
      | _ => exact absurd found (by simp [Items.next])

theorem read_tuple_yields (count : Nat) :
    Yields (Tree.readTuple count) fun values => ∀ value ∈ values, value.isFinite = true := by
  intro tree values finite done
  cases tree with
  | array items =>
      obtain ⟨⟨found, rest⟩, here, done⟩ := except_bind_eq_ok done
      obtain ⟨_, _, done⟩ := except_bind_eq_ok done
      obtain rfl := Except.ok.inj done
      exact read_floats_yields count items finite here
  | _ => exact absurd done (by simp [Tree.readTuple])

section Records

variable {Parts α : Type} {fields : List (RecordField Parts)} {collected : Parts → Prop}
  {property : α → Prop}

def RecordField.Keeps (field : RecordField Parts) (collected : Parts → Prop) : Prop :=
  ∀ tree before after, tree.IsFinite → collected before → field.read tree before = .ok after →
    collected after

theorem fill_members_keeps (keeps : ∀ field ∈ fields, field.Keeps collected) (members : Members)
    (finite : members.IsFinite) {before after : Parts} (held : collected before)
    (done : members.fill fields before = .ok after) : collected after := by
  cases members with
  | closed =>
      obtain rfl := Except.ok.inj done
      exact held
  | member name tree rest =>
      rw [Members.fill] at done
      obtain ⟨known, _, done⟩ := except_bind_eq_ok done
      split at done
      · next field found =>
          split_ifs at done
          obtain ⟨parts, here, done⟩ := except_bind_eq_ok done
          have kept := keeps field (List.mem_of_find?_eq_some found) tree before parts finite.1
            held here
          exact fill_members_keeps keeps rest finite.2 kept done
      · obtain ⟨_, _, done⟩ := except_bind_eq_ok done
        exact fill_members_keeps keeps rest finite.2 held done
  | broken flaw => exact absurd done (by simp [Members.fill])
  | brokenName ends => exact absurd done (by simp [Members.fill])

theorem fill_items_keeps (keeps : ∀ field ∈ fields, field.Keeps collected) (items : Items)
    (finite : items.IsFinite) {before after : Parts} {rest : Items} (held : collected before)
    (done : items.fill fields before = .ok (after, rest)) : collected after := by
  induction fields generalizing items before with
  | nil =>
      obtain ⟨rfl, rfl⟩ := Prod.mk.inj (Except.ok.inj done)
      exact held
  | cons field fields induction =>
      obtain ⟨here, others⟩ := List.forall_mem_cons.1 keeps
      obtain ⟨next, found, done⟩ := except_bind_eq_ok done
      cases items with
      | item tree further =>
          obtain rfl := Except.ok.inj found
          obtain ⟨parts, read, done⟩ := except_bind_eq_ok done
          exact induction others further finite.2 (here tree before parts finite.1 held read) done
      | closed =>
          obtain rfl := Except.ok.inj found
          obtain ⟨rfl, rfl⟩ := Prod.mk.inj (Except.ok.inj done)
          exact held
      | _ => exact absurd found (by simp [Items.next])

theorem read_record_yields {start : Parts} {complete : Parts → Option α}
    (keeps : ∀ field ∈ fields, field.Keeps collected) (begins : collected start)
    (whole : ∀ parts value, collected parts → complete parts = some value → property value) :
    Yields (Tree.readRecord fields start complete) property := by
  intro tree value finite done
  cases tree with
  | object members =>
      obtain ⟨parts, filled, done⟩ := except_bind_eq_ok done
      have held := fill_members_keeps keeps members finite begins filled
      cases completed : complete parts with
      | none => rw [completed] at done; exact absurd done (by simp)
      | some found =>
          rw [completed] at done
          obtain rfl := Except.ok.inj done
          exact whole parts found held completed
  | array items =>
      obtain ⟨⟨parts, rest⟩, filled, done⟩ := except_bind_eq_ok done
      have held := fill_items_keeps keeps items finite begins filled
      simp only at done
      cases completed : complete parts with
      | none => rw [completed] at done; exact absurd done (by simp)
      | some found =>
          rw [completed] at done
          obtain ⟨_, _, done⟩ := except_bind_eq_ok done
          obtain rfl := Except.ok.inj done
          exact whole parts found held completed
  | _ => exact absurd done (by simp [Tree.readRecord])

end Records

end SparseQuantum.Json
