import SparseQuantum.Json.Token

/-!
What can be read of a JSON text, from the left up to the first place where it stops being one. The
flaw of a defective text stands in its tree at that place, so a reader that goes through a tree from
the left meets a wrong shape or a defect in the order in which the text has them.
-/

namespace SparseQuantum.Json

mutual

inductive Tree where
  | null
  | bool (value : Bool)
  | number (value : Number)
  /-- A text, or the flaw of its escapes. -/
  | text (content : Except Flaw String)
  | array (items : Items)
  | object (members : Members)
  /-- No value begins here. -/
  | missing (flaw : Flaw)
  /-- A word, a number or a stray character that is no value. -/
  | broken (ends : Break)
  | brokenText (ends : Break)

inductive Items where
  | closed
  | item (value : Tree) (rest : Items)
  /-- Neither a comma nor the end follows. -/
  | broken (flaw : Flaw)
  /-- Nothing follows the comma. -/
  | dangling (flaw : Flaw)

inductive Members where
  | closed
  | member (name : Except Flaw String) (value : Tree) (rest : Members)
  /-- Neither a comma nor the end follows. -/
  | broken (flaw : Flaw)
  /-- No name begins where one must, or a name breaks off. -/
  | brokenName (ends : Break)

end

/-! ### From tokens to trees -/

mutual

/-- The value at the start, and the tokens behind it if it is complete. -/
def Tree.take : Nat → List Token → Tree × List Token
  | 0, _ => (.missing .truncated, [])
  | _ + 1, [] => (.missing .truncated, [])
  | budget + 1, token :: rest =>
      match token with
      | .null => (.null, rest)
      | .bool value => (.bool value, rest)
      | .number value => (.number value, rest)
      | .text content => (.text content, rest)
      | .brokenText ends => (.brokenText ends, [])
      | .broken ends => (.broken ends, [])
      | .openArray =>
          match rest with
          | .closeArray :: rest => (.array .closed, rest)
          | [] => (.array (.broken .truncated), [])
          | _ =>
              let (items, rest) := Items.take budget rest
              (.array items, rest)
      | .openObject =>
          match rest with
          | .closeObject :: rest => (.object .closed, rest)
          | [] => (.object (.broken .truncated), [])
          | .text name :: rest =>
              let (members, rest) := Members.take budget name rest
              (.object members, rest)
          | .brokenText ends :: _ => (.object (.brokenName ends), [])
          | _ :: _ => (.object (.brokenName (.always .malformed)), [])
      | .closeArray | .closeObject | .comma | .colon => (.broken (.always .malformed), [])

def Items.take : Nat → List Token → Items × List Token
  | 0, _ => (.broken .truncated, [])
  | budget + 1, tokens =>
      let (value, rest) := Tree.take budget tokens
      match rest with
      | .closeArray :: rest => (.item value .closed, rest)
      | [] => (.item value (.broken .truncated), [])
      | [.comma] => (.item value (.dangling .truncated), [])
      | .comma :: .closeArray :: _ => (.item value (.dangling .malformed), [])
      | .comma :: rest =>
          let (items, rest) := Items.take budget rest
          (.item value items, rest)
      | _ :: _ => (.item value (.broken .malformed), [])

/-- The members from the one whose name has just been read. -/
def Members.take : Nat → Except Flaw String → List Token → Members × List Token
  | 0, _, _ => (.broken .truncated, [])
  | budget + 1, name, tokens =>
      match tokens with
      | [] => (.member name (.missing .truncated) (.broken .truncated), [])
      | .colon :: rest =>
          let (value, rest) := Tree.take budget rest
          match rest with
          | .closeObject :: rest => (.member name value .closed, rest)
          | [] => (.member name value (.broken .truncated), [])
          | [.comma] => (.member name value (.brokenName (.always .truncated)), [])
          | .comma :: .text next :: rest =>
              let (members, rest) := Members.take budget next rest
              (.member name value members, rest)
          | .comma :: .brokenText ends :: _ => (.member name value (.brokenName ends), [])
          | .comma :: _ => (.member name value (.brokenName (.always .malformed)), [])
          | _ :: _ => (.member name value (.broken .malformed), [])
      | _ :: _ => (.member name (.missing .malformed) (.broken .malformed), [])

end

structure Document where
  tree : Tree
  trailing : Bool

/-- Every value, item and member takes a token of its own, and three steps at most. -/
def Document.ofTokens (tokens : List Token) : Document :=
  let (tree, rest) := Tree.take (3 * tokens.length + 1) tokens
  ⟨tree, !rest.isEmpty⟩

def Document.ofText (text : String) : Document := .ofTokens (Token.scan text.toList)

end SparseQuantum.Json
