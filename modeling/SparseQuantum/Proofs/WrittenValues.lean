import Mathlib
import SparseQuantum.Proofs.WrittenFloats
import SparseQuantum.Proofs.WrittenTrees

/-!
# Values as they are written

Both forms of a value, the compact one and the one with a line for each part, spell the tokens of
the same tree. So the text of a value is read as its tree, with nothing behind it. What the tree of
a float holds is left to the reader of numbers; all other values are in their trees as they are, up
to integers that do not fit into 64 bits.
-/

namespace SparseQuantum.Json

set_option autoImplicit false

/-! ### The tree of a value -/

def leadingNumber (text : List Char) : Number :=
  match Token.takeNumeral text with
  | .ok (numeral, _) => numeral.number
  | .error _ => .excessive

def floatTree (value : Float) : Tree :=
  match Decimal.json? value with
  | some text => .number (leadingNumber text.toList)
  | none => .null

mutual

def Value.tree : Value → Tree
  | .null => .null
  | .bool value => .bool value
  | .integer value => .number (WrittenNumeral.ofInt value).numeral.number
  | .real value => floatTree value
  | .text value => .text (.ok value)
  | .array items => .array (Value.itemsTree items)
  | .object members => .object (Value.membersTree members)

def Value.itemsTree : List Value → Items
  | [] => .closed
  | item :: rest => .item item.tree (Value.itemsTree rest)

def Value.membersTree : List (String × Value) → Members
  | [] => .closed
  | (name, value) :: rest => .member (.ok name) value.tree (Value.membersTree rest)

end

theorem leading_number_written (written : WrittenNumeral) :
    leadingNumber written.characters = written.numeral.number := by
  have read := written.take_numeral_styled .usual (ends_run_nil _)
  rw [List.append_nil, written.styled_usual] at read
  rw [leadingNumber, read]

mutual

theorem Value.tree_is_whole : ∀ value : Value, value.tree.isWhole = true
  | .null => rfl
  | .bool _ => rfl
  | .integer _ => rfl
  | .real value => by
      rw [Value.tree, floatTree]
      split <;> rfl
  | .text _ => rfl
  | .array items => Value.items_tree_is_whole items
  | .object members => Value.members_tree_is_whole members

theorem Value.items_tree_is_whole : ∀ items : List Value, (Value.itemsTree items).isWhole = true
  | [] => rfl
  | item :: rest => by
      rw [Value.itemsTree, Items.isWhole, item.tree_is_whole, Value.items_tree_is_whole rest]
      rfl

theorem Value.members_tree_is_whole :
    ∀ members : List (String × Value), (Value.membersTree members).isWhole = true
  | [] => rfl
  | (name, value) :: rest => by
      rw [Value.membersTree, Members.isWhole, value.tree_is_whole,
        Value.members_tree_is_whole rest]
      rfl

end

/-! ### Values without parts -/

namespace Value

theorem scalar_spelled {value : Value} (noArray : ∀ items, value ≠ .array items)
    (noObject : ∀ members, value ≠ .object members) {tokens : List Token} {rest : List Char}
    (ends : EndsNumber rest) (behind : TokensText tokens rest) :
    TokensText (value.tree.tokens ++ tokens) (value.scalarText ++ rest) := by
  cases value with
  | null => exact .token .nullWord trivial behind
  | bool value =>
      cases value with
      | true => exact .token .trueWord trivial behind
      | false => exact .token .falseWord trivial behind
  | integer value =>
      rw [scalarText, ← WrittenNumeral.of_int_characters]
      exact .usual ends behind
  | real value =>
      rw [scalarText, tree, floatTree]
      cases written : Decimal.json? value with
      | none => exact .token .nullWord trivial behind
      | some text =>
          obtain ⟨numeral, same⟩ := float_written written
          simp only [Option.getD_some]
          rw [← same, leading_number_written]
          exact .usual ends behind
  | text value => exact .quoted behind
  | array items => exact absurd rfl (noArray items)
  | object members => exact absurd rfl (noObject members)

end Value

/-! ### Both forms at once -/

mutual

/-- A value with `line depth` before each part at that depth and before the end of what has parts,
and with `gap` behind each colon. -/
def Value.laidOut (line : Nat → List Char) (gap : List Char) (depth : Nat) : Value → List Char
  | .array [] => ['[', ']']
  | .array items => '[' :: Value.laidItems line gap (depth + 1) items ++ line depth ++ [']']
  | .object [] => ['\x7b', '\x7d']
  | .object members =>
      '\x7b' :: Value.laidMembers line gap (depth + 1) members ++ line depth ++ ['\x7d']
  | .null => scalarText .null
  | .bool value => scalarText (.bool value)
  | .integer value => scalarText (.integer value)
  | .real value => scalarText (.real value)
  | .text value => scalarText (.text value)

def Value.laidItems (line : Nat → List Char) (gap : List Char) (depth : Nat) :
    List Value → List Char
  | [] => []
  | [item] => line depth ++ item.laidOut line gap depth
  | item :: rest => line depth ++ item.laidOut line gap depth ++ ',' ::
      Value.laidItems line gap depth rest

def Value.laidMembers (line : Nat → List Char) (gap : List Char) (depth : Nat) :
    List (String × Value) → List Char
  | [] => []
  | [(name, value)] =>
      line depth ++ Text.quote name.toList ++ ':' :: (gap ++ value.laidOut line gap depth)
  | (name, value) :: rest =>
      line depth ++ Text.quote name.toList ++ ':' :: (gap ++ value.laidOut line gap depth) ++ ',' ::
        Value.laidMembers line gap depth rest

end

mutual

theorem Value.pretty_laid_out : ∀ (value : Value) (depth : Nat),
    value.prettyChars depth = value.laidOut newLine [' '] depth
  | .array [], _ | .object [], _ => by rw [Value.prettyChars, Value.laidOut]
  | .array (item :: items), depth => by
      rw [Value.prettyChars, Value.laidOut, Value.pretty_laid_items] <;> simp
  | .object (member :: members), depth => by
      rw [Value.prettyChars, Value.laidOut, Value.pretty_laid_members] <;> simp
  | .null, _ | .bool _, _ | .integer _, _ | .real _, _ | .text _, _ => by
      rw [Value.prettyChars, Value.laidOut]

theorem Value.pretty_laid_items : ∀ (items : List Value) (depth : Nat),
    Value.prettyItems depth items = Value.laidItems newLine [' '] depth items
  | [], _ => by rw [Value.prettyItems, Value.laidItems]
  | [item], depth => by rw [Value.prettyItems, Value.laidItems, item.pretty_laid_out]
  | item :: next :: items, depth => by
      rw [Value.prettyItems, Value.laidItems, item.pretty_laid_out,
        Value.pretty_laid_items (next :: items)] <;> simp

theorem Value.pretty_laid_members : ∀ (members : List (String × Value)) (depth : Nat),
    Value.prettyMembers depth members = Value.laidMembers newLine [' '] depth members
  | [], _ => by rw [Value.prettyMembers, Value.laidMembers]
  | [(name, value)], depth => by
      rw [Value.prettyMembers, Value.laidMembers, value.pretty_laid_out]
      rfl
  | (name, value) :: next :: members, depth => by
      rw [Value.prettyMembers, Value.laidMembers, value.pretty_laid_out,
        Value.pretty_laid_members (next :: members)] <;> simp

end

mutual

theorem Value.compact_laid_out : ∀ (value : Value) (depth : Nat),
    value.compactChars = value.laidOut (fun _ => []) [] depth
  | .array [], _ | .object [], _ => rfl
  | .array (item :: items), depth => by
      rw [Value.compactChars, Value.laidOut,
        Value.compact_laid_items (item :: items) (depth + 1)] <;> simp
  | .object (member :: members), depth => by
      rw [Value.compactChars, Value.laidOut,
        Value.compact_laid_members (member :: members) (depth + 1)] <;> simp
  | .null, _ | .bool _, _ | .integer _, _ | .real _, _ | .text _, _ => by
      rw [Value.compactChars, Value.laidOut]

theorem Value.compact_laid_items : ∀ (items : List Value) (depth : Nat),
    Value.compactItems items = Value.laidItems (fun _ => []) [] depth items
  | [], _ => by rw [Value.compactItems, Value.laidItems]
  | [item], depth => by
      rw [Value.compactItems, Value.laidItems, item.compact_laid_out depth]
      rfl
  | item :: next :: items, depth => by
      rw [Value.compactItems, Value.laidItems, item.compact_laid_out depth,
        Value.compact_laid_items (next :: items) depth] <;> simp

theorem Value.compact_laid_members : ∀ (members : List (String × Value)) (depth : Nat),
    Value.compactMembers members = Value.laidMembers (fun _ => []) [] depth members
  | [], _ => by rw [Value.compactMembers, Value.laidMembers]
  | [(name, value)], depth => by
      rw [Value.compactMembers, Value.laidMembers, value.compact_laid_out depth]
      rfl
  | (name, value) :: next :: members, depth => by
      rw [Value.compactMembers, Value.laidMembers, value.compact_laid_out depth,
        Value.compact_laid_members (next :: members) depth] <;> simp

end

/-! ### Both forms spell the tree -/

theorem ends_number_spaced {spaces rest : List Char}
    (blank : ∀ character ∈ spaces, Token.isSpace character = true) (ends : EndsNumber rest) :
    EndsNumber (spaces ++ rest) := by
  cases spaces with
  | nil => exact ends
  | cons character spaces =>
      apply ends_run_cons
      rcases Token.eq_of_is_space (blank character List.mem_cons_self) with
        same | same | same | same
      all_goals
        rw [same]
        decide

structure SetsApart (line : Nat → List Char) (gap : List Char) : Prop where
  lines : ∀ depth, ∀ character ∈ line depth, Token.isSpace character = true
  gaps : ∀ character ∈ gap, Token.isSpace character = true

section

variable {line : Nat → List Char} {gap : List Char} (apart : SetsApart line gap)

include apart

mutual

theorem Value.laid_out_spelled :
    ∀ (value : Value) (depth : Nat) {tokens : List Token} {rest : List Char},
      EndsNumber rest → TokensText tokens rest →
        TokensText (value.tree.tokens ++ tokens) (value.laidOut line gap depth ++ rest)
  | .array [], _, _, _, _, behind => .mark rfl (.mark rfl behind)
  | .object [], _, _, _, _, behind => .mark rfl (.mark rfl behind)
  | .array (item :: items), depth, _, _, _, behind => by
      have parts := Value.laid_items_spelled (item :: items) (depth + 1) behind (apart.lines depth)
      rw [Value.laidOut, Value.tree, Tree.tokens]
      · simp only [List.cons_append, List.append_assoc, List.nil_append]
        exact .mark rfl parts
      · simp
  | .object (member :: members), depth, _, _, _, behind => by
      have parts := Value.laid_members_spelled (member :: members) (depth + 1) behind
        (apart.lines depth)
      rw [Value.laidOut, Value.tree, Tree.tokens]
      · simp only [List.cons_append, List.append_assoc, List.nil_append]
        exact .mark rfl parts
      · simp
  | .null, _, _, _, ends, behind | .bool _, _, _, _, ends, behind
  | .integer _, _, _, _, ends, behind | .real _, _, _, _, ends, behind
  | .text _, _, _, _, ends, behind => by
      rw [Value.laidOut]
      exact Value.scalar_spelled (by simp) (by simp) ends behind

theorem Value.laid_items_spelled : ∀ (items : List Value) (depth : Nat) {tokens : List Token}
    {last rest : List Char}, TokensText tokens rest →
      (∀ character ∈ last, Token.isSpace character = true) →
        TokensText ((Value.itemsTree items).tokens ++ tokens)
          (Value.laidItems line gap depth items ++ (last ++ ']' :: rest))
  | [], _, _, _, _, behind, blank => by
      rw [Value.laidItems, Value.itemsTree, Items.tokens, List.nil_append]
      exact .spaced blank (.mark rfl behind)
  | [item], depth, _, _, _, behind, blank => by
      have closing : TokensText (.closeArray :: _) (']' :: _) := .mark rfl behind
      have ending := closing.spaced blank
      rw [Value.laidItems, Value.itemsTree, Value.itemsTree, Items.tokens, List.append_assoc,
        List.append_assoc]
      exact .spaced (apart.lines depth) (item.laid_out_spelled depth
        (ends_number_spaced blank (ends_run_cons (by decide) _)) ending)
  | item :: next :: items, depth, _, _, _, behind, blank => by
      have others := Value.laid_items_spelled (next :: items) depth behind blank
      rw [Value.laidItems, Value.itemsTree, Items.item_tokens _ (by simp [Value.itemsTree])]
      · simp only [List.cons_append, List.append_assoc]
        exact .spaced (apart.lines depth)
          (item.laid_out_spelled depth (ends_run_cons (by decide) _) (.mark rfl others))
      · simp

theorem Value.laid_members_spelled : ∀ (members : List (String × Value)) (depth : Nat)
    {tokens : List Token} {last rest : List Char}, TokensText tokens rest →
      (∀ character ∈ last, Token.isSpace character = true) →
        TokensText ((Value.membersTree members).tokens ++ tokens)
          (Value.laidMembers line gap depth members ++ (last ++ '\x7d' :: rest))
  | [], _, _, _, _, behind, blank => by
      rw [Value.laidMembers, Value.membersTree, Members.tokens, List.nil_append]
      exact .spaced blank (.mark rfl behind)
  | [(name, value)], depth, _, _, _, behind, blank => by
      rw [Value.laidMembers, Value.membersTree, Value.membersTree, Members.tokens]
      simp only [List.cons_append, List.append_assoc, List.nil_append]
      exact .spaced (apart.lines depth) (.quoted (.mark rfl (.spaced apart.gaps
        (value.laid_out_spelled depth (ends_number_spaced blank (ends_run_cons (by decide) _))
          (.spaced blank (.mark rfl behind))))))
  | (name, value) :: next :: members, depth, _, _, _, behind, blank => by
      have others := Value.laid_members_spelled (next :: members) depth behind blank
      rw [Value.laidMembers, Value.membersTree,
        Members.member_tokens _ _ (by simp [Value.membersTree])]
      · simp only [List.cons_append, List.append_assoc]
        exact .spaced (apart.lines depth) (.quoted (.mark rfl (.spaced apart.gaps
          (value.laid_out_spelled depth (ends_run_cons (by decide) _) (.mark rfl others)))))
      · simp

end

theorem Value.text_spelled (value : Value) (depth : Nat) :
    TokensText value.tree.tokens (value.laidOut line gap depth) := by
  have spelled := value.laid_out_spelled apart depth (ends_run_nil _) .finished
  rwa [List.append_nil, List.append_nil] at spelled

end

theorem new_line_blank (depth : Nat) :
    ∀ character ∈ Value.newLine depth, Token.isSpace character = true := by
  intro character inside
  rcases List.mem_cons.1 inside with same | blank
  · rw [same]
    decide
  · rw [List.eq_of_mem_replicate blank]
    decide

theorem Value.pretty_spelled (value : Value) :
    TokensText value.tree.tokens value.pretty.toList := by
  rw [pretty, String.toList_ofList, pretty_laid_out]
  exact value.text_spelled ⟨new_line_blank, by simp [Token.isSpace]⟩ 0

theorem Value.compact_spelled (value : Value) :
    TokensText value.tree.tokens value.compact.toList := by
  rw [compact, String.toList_ofList, value.compact_laid_out 0]
  exact value.text_spelled ⟨by simp, by simp⟩ 0

theorem Document.of_pretty (value : Value) :
    Document.ofText value.pretty = ⟨value.tree, false⟩ :=
  Document.of_tokens_text value.tree_is_whole value.pretty_spelled

theorem Document.of_compact (value : Value) :
    Document.ofText value.compact = ⟨value.tree, false⟩ :=
  Document.of_tokens_text value.tree_is_whole value.compact_spelled

end SparseQuantum.Json
