import Mathlib
import SparseQuantum.Proofs.WrittenTokens

/-!
# Trees as they are written

A tree without defect stands for the tokens that write it, and reading these tokens gives the tree
back, whatever follows. So a text of these tokens is read as the tree, with nothing behind it.
-/

namespace SparseQuantum.Json

set_option autoImplicit false

/-! ### Trees without defect -/

mutual

def Tree.isWhole : Tree → Bool
  | .null | .bool _ | .number _ | .text _ => true
  | .array items => items.isWhole
  | .object members => members.isWhole
  | .missing _ | .broken _ | .brokenText _ => false

def Items.isWhole : Items → Bool
  | .closed => true
  | .item value rest => value.isWhole && rest.isWhole
  | .broken _ | .dangling _ => false

def Members.isWhole : Members → Bool
  | .closed => true
  | .member _ value rest => value.isWhole && rest.isWhole
  | .broken _ | .brokenName _ => false

end

mutual

/-- The tokens of a tree; what is broken has none. -/
def Tree.tokens : Tree → List Token
  | .null => [.null]
  | .bool value => [.bool value]
  | .number value => [.number value]
  | .text content => [.text content]
  | .array items => .openArray :: items.tokens
  | .object members => .openObject :: members.tokens
  | .missing _ | .broken _ | .brokenText _ => []

def Items.tokens : Items → List Token
  | .closed => [.closeArray]
  | .item value .closed => value.tokens ++ [.closeArray]
  | .item value rest => value.tokens ++ .comma :: rest.tokens
  | .broken _ | .dangling _ => []

def Members.tokens : Members → List Token
  | .closed => [.closeObject]
  | .member name value .closed => .text name :: .colon :: value.tokens ++ [.closeObject]
  | .member name value rest => .text name :: .colon :: value.tokens ++ .comma :: rest.tokens
  | .broken _ | .brokenName _ => []

end

theorem Tree.tokens_first {tree : Tree} (whole : tree.isWhole = true) :
    ∃ token others, tree.tokens = token :: others ∧ token ≠ .closeArray := by
  cases tree with
  | missing | broken | brokenText => exact absurd whole (by simp [isWhole])
  | null | bool | number | text | array | object =>
      rw [tokens]
      exact ⟨_, _, rfl, by simp⟩

theorem Items.item_tokens (value : Tree) {rest : Items} (more : rest ≠ .closed) :
    (Items.item value rest).tokens = value.tokens ++ .comma :: rest.tokens := by
  cases rest with
  | closed => exact absurd rfl more
  | item | broken | dangling => simp [tokens]

theorem Members.member_tokens (name : Except Flaw String) (value : Tree) {rest : Members}
    (more : rest ≠ .closed) :
    (Members.member name value rest).tokens =
      .text name :: .colon :: (value.tokens ++ .comma :: rest.tokens) := by
  cases rest with
  | closed => exact absurd rfl more
  | member | broken | brokenName => simp [tokens]

theorem Items.tokens_first {value : Tree} (rest : Items) (whole : value.isWhole = true) :
    ∃ token others, (Items.item value rest).tokens = token :: others ∧ token ≠ .closeArray := by
  obtain ⟨token, others, shape, solid⟩ := Tree.tokens_first whole
  cases rest with
  | closed =>
      rw [tokens, shape]
      exact ⟨token, _, rfl, solid⟩
  | item | broken | dangling =>
      rw [item_tokens value (by simp), shape]
      exact ⟨token, _, rfl, solid⟩

/-! ### Reading the tokens of a tree -/

theorem Tree.take_array (budget : Nat) {token : Token} (solid : token ≠ .closeArray)
    (others : List Token) :
    Tree.take (budget + 1) (.openArray :: token :: others) =
      (.array (Items.take budget (token :: others)).1,
        (Items.take budget (token :: others)).2) := by
  cases token with
  | closeArray => exact absurd rfl solid
  | _ => rfl

theorem Items.take_last {budget : Nat} {tokens rest : List Token} {value : Tree}
    (read : Tree.take budget tokens = (value, .closeArray :: rest)) :
    Items.take (budget + 1) tokens = (.item value .closed, rest) := by
  rw [Items.take, read]

theorem Items.take_next {budget : Nat} {tokens others : List Token} {value : Tree} {token : Token}
    (read : Tree.take budget tokens = (value, .comma :: token :: others))
    (solid : token ≠ .closeArray) :
    Items.take (budget + 1) tokens =
      (.item value (Items.take budget (token :: others)).1,
        (Items.take budget (token :: others)).2) := by
  rw [Items.take, read]
  cases token with
  | closeArray => exact absurd rfl solid
  | _ => rfl

theorem Members.take_last {budget : Nat} (name : Except Flaw String) {tokens rest : List Token}
    {value : Tree} (read : Tree.take budget tokens = (value, .closeObject :: rest)) :
    Members.take (budget + 1) name (.colon :: tokens) = (.member name value .closed, rest) := by
  rw [Members.take]
  simp only [read]

theorem Members.take_next {budget : Nat} (name next : Except Flaw String)
    {tokens others : List Token} {value : Tree}
    (read : Tree.take budget tokens = (value, .comma :: .text next :: others)) :
    Members.take (budget + 1) name (.colon :: tokens) =
      (.member name value (Members.take budget next others).1,
        (Members.take budget next others).2) := by
  rw [Members.take]
  simp only [read]

mutual

/-- A tree without defect is read back from its tokens, whatever follows them. No value, item or
member takes more steps than it has tokens. -/
theorem Tree.take_tokens : ∀ (tree : Tree) (budget : Nat) (rest : List Token),
    tree.isWhole = true → tree.tokens.length ≤ budget →
      Tree.take budget (tree.tokens ++ rest) = (tree, rest)
  | tree, 0, _, whole, enough => by
      obtain ⟨token, others, shape, _⟩ := tree.tokens_first whole
      rw [shape] at enough
      exact absurd enough (by simp)
  | .null, _ + 1, _, _, _ => rfl
  | .bool _, _ + 1, _, _, _ => rfl
  | .number _, _ + 1, _, _, _ => rfl
  | .text _, _ + 1, _, _, _ => rfl
  | .array .closed, _ + 1, _, _, _ => rfl
  | .object .closed, _ + 1, _, _, _ => rfl
  | .array (.item value items), budget + 1, rest, whole, enough => by
      rw [Tree.isWhole] at whole
      have read := Items.take_tokens (.item value items) budget rest whole (by simp)
        (by simpa [Tree.tokens] using enough)
      rw [Items.isWhole, Bool.and_eq_true] at whole
      obtain ⟨token, others, shape, solid⟩ := Items.tokens_first items whole.1
      rw [Tree.tokens, List.cons_append]
      rw [shape, List.cons_append] at read ⊢
      rw [Tree.take_array budget solid, read]
  | .object (.member name value members), budget + 1, rest, whole, enough => by
      rw [Tree.isWhole] at whole
      obtain ⟨first, tail, shape, read⟩ :=
        Members.take_tokens (.member name value members) budget rest whole (by simp)
          (by simpa [Tree.tokens] using enough)
      rw [Tree.tokens, shape]
      show (Tree.object (Members.take budget first (tail ++ rest)).1,
        (Members.take budget first (tail ++ rest)).2) = _
      rw [read]
  | .missing _, _, _, whole, _ => absurd whole (by simp [Tree.isWhole])
  | .broken _, _, _, whole, _ => absurd whole (by simp [Tree.isWhole])
  | .brokenText _, _, _, whole, _ => absurd whole (by simp [Tree.isWhole])
  | .array (.broken _), _, _, whole, _ => absurd whole (by simp [Tree.isWhole, Items.isWhole])
  | .array (.dangling _), _, _, whole, _ => absurd whole (by simp [Tree.isWhole, Items.isWhole])
  | .object (.broken _), _, _, whole, _ => absurd whole (by simp [Tree.isWhole, Members.isWhole])
  | .object (.brokenName _), _, _, whole, _ =>
      absurd whole (by simp [Tree.isWhole, Members.isWhole])

theorem Items.take_tokens : ∀ (items : Items) (budget : Nat) (rest : List Token),
    items.isWhole = true → items ≠ .closed → items.tokens.length ≤ budget →
      Items.take budget (items.tokens ++ rest) = (items, rest)
  | .item value items, 0, _, whole, _, enough => by
      rw [Items.isWhole, Bool.and_eq_true] at whole
      obtain ⟨token, others, shape, _⟩ := Items.tokens_first items whole.1
      rw [shape] at enough
      exact absurd enough (by simp)
  | .item value .closed, budget + 1, rest, whole, _, enough => by
      rw [Items.isWhole, Bool.and_eq_true] at whole
      rw [Items.tokens, List.length_append, List.length_singleton] at enough
      rw [Items.tokens, List.append_assoc]
      exact Items.take_last (Tree.take_tokens value budget _ whole.1 (by omega))
  | .item value (.item next items), budget + 1, rest, whole, _, enough => by
      rw [Items.isWhole, Bool.and_eq_true] at whole
      rw [Items.item_tokens value (by simp), List.length_append, List.length_cons] at enough
      have read := Items.take_tokens (.item next items) budget rest whole.2 (by simp) (by omega)
      have first := Tree.take_tokens value budget
        (.comma :: ((Items.item next items).tokens ++ rest)) whole.1 (by omega)
      have wholeNext := whole.2
      rw [Items.isWhole, Bool.and_eq_true] at wholeNext
      obtain ⟨token, others, shape, solid⟩ := Items.tokens_first items wholeNext.1
      rw [Items.item_tokens value (by simp), List.append_assoc, List.cons_append]
      rw [shape, List.cons_append] at read first ⊢
      rw [Items.take_next first solid, read]
  | .item _ (.broken _), _ + 1, _, whole, _, _ => absurd whole (by simp [Items.isWhole])
  | .item _ (.dangling _), _ + 1, _, whole, _, _ => absurd whole (by simp [Items.isWhole])
  | .closed, _, _, _, more, _ => absurd rfl more
  | .broken _, _, _, whole, _, _ => absurd whole (by simp [Items.isWhole])
  | .dangling _, _, _, whole, _, _ => absurd whole (by simp [Items.isWhole])

theorem Members.take_tokens : ∀ (members : Members) (budget : Nat) (rest : List Token),
    members.isWhole = true → members ≠ .closed → members.tokens.length ≤ budget →
      ∃ name tail, members.tokens = .text name :: tail ∧
        Members.take budget name (tail ++ rest) = (members, rest)
  | .member name value .closed, 0, _, _, _, enough => absurd enough (by simp [Members.tokens])
  | .member name value .closed, budget + 1, rest, whole, _, enough => by
      rw [Members.isWhole, Bool.and_eq_true] at whole
      refine ⟨name, .colon :: (value.tokens ++ [.closeObject]), by rw [Members.tokens]; rfl, ?_⟩
      rw [Members.tokens] at enough
      simp only [List.cons_append, List.length_append, List.length_cons, List.length_nil] at enough
      rw [List.cons_append, List.append_assoc]
      exact Members.take_last name (Tree.take_tokens value budget _ whole.1 (by omega))
  | .member name value (.member ..), 0, _, _, _, enough =>
      absurd enough (by simp [Members.tokens])
  | .member name value (.member next other members), budget + 1, rest, whole, _, enough => by
      rw [Members.isWhole, Bool.and_eq_true] at whole
      refine ⟨name, _, Members.member_tokens name value (by simp), ?_⟩
      rw [Members.member_tokens name value (by simp)] at enough
      simp only [List.length_append, List.length_cons] at enough
      obtain ⟨first, tail, shape, read⟩ :=
        Members.take_tokens (.member next other members) budget rest whole.2 (by simp) (by omega)
      have before := Tree.take_tokens value budget (.comma :: .text first :: (tail ++ rest)) whole.1
        (by omega)
      rw [shape, List.cons_append, List.append_assoc]
      rw [List.cons_append, List.cons_append, Members.take_next name first before, read]
  | .member _ _ (.broken _), _, _, whole, _, _ => absurd whole (by simp [Members.isWhole])
  | .member _ _ (.brokenName _), _, _, whole, _, _ => absurd whole (by simp [Members.isWhole])
  | .closed, _, _, _, more, _ => absurd rfl more
  | .broken _, _, _, whole, _, _ => absurd whole (by simp [Members.isWhole])
  | .brokenName _, _, _, whole, _, _ => absurd whole (by simp [Members.isWhole])

end

/-- However the tokens of a tree without defect are written, the text is read as that tree, with
nothing behind it. -/
theorem Document.of_tokens_text {tree : Tree} (whole : tree.isWhole = true) {text : String}
    (written : TokensText tree.tokens text.toList) : Document.ofText text = ⟨tree, false⟩ := by
  have read := tree.take_tokens (3 * tree.tokens.length + 1) [] whole (by omega)
  rw [List.append_nil] at read
  rw [ofText, written.scan, ofTokens, read]
  rfl

end SparseQuantum.Json
