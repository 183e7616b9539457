import Mathlib
import SparseQuantum.Json.Value
import SparseQuantum.Proofs.TokenTexts

/-!
# Tokens as they are written

Of all the ways to write a token, one is chosen when a value is written: a text with as few escapes
as possible, a number with a small letter and a sign before its exponent. White space may stand
wherever one likes.
-/

namespace SparseQuantum.Json

set_option autoImplicit false

open Token

/-! ### Quoted texts -/

theorem hex_digits_control : ∀ code < 0x20,
    IsHexDigit (code / 16) (Text.hexDigit (code / 16)) ∧
      IsHexDigit (code % 16) (Text.hexDigit (code % 16)) := by
  unfold IsHexDigit
  decide

theorem quoted_character (character : Char) :
    CharacterText character (Text.quoteCharacter character) := by
  have same := Char.ofNat_toNat character
  rw [Text.quoteCharacter]
  split_ifs with quote slash line back tab bell feed control
  · subst quote
    exact .escaped (by decide)
  · subst slash
    exact .escaped (by decide)
  · subst line
    exact .escaped (by decide)
  · subst back
    exact .escaped (by decide)
  · subst tab
    exact .escaped (by decide)
  · rw [← same, bell]
    exact .escaped (by decide)
  · rw [← same, feed]
    exact .escaped (by decide)
  · have zero : IsHexDigit 0 '0' := ⟨by decide, .inl rfl⟩
    obtain ⟨lower, low⟩ := hex_digits_control _ control
    have unit := UnitText.digits zero zero lower low
    have code : ((0 * 16 + 0) * 16 + character.toNat / 16) * 16 + character.toNat % 16 =
        character.toNat := by omega
    rw [code] at unit
    have solid : isHighSurrogate character.toNat = false ∧
        isLowSurrogate character.toNat = false := by
      simp only [isLowSurrogate, isHighSurrogate, Bool.and_eq_false_iff, decide_eq_false_iff_not]
      omega
    have written := CharacterText.unit unit solid.1 solid.2
    rwa [same] at written
  · exact .plain quote slash (Nat.le_of_not_lt control)

theorem quoted_content (content : List Char) :
    ContentText content (content.flatMap Text.quoteCharacter) := by
  induction content with
  | nil => exact .nil
  | cons character content induction =>
      rw [List.flatMap_cons]
      exact .cons (quoted_character character) induction

theorem ends_mark {character : Char} {token : Token} (known : mark? character = some token)
    (rest : List Char) : EndsToken token rest := by
  cases token with
  | number value =>
      unfold mark? at known
      split at known <;> cases known
  | _ => trivial

namespace TokensText

variable {tokens : List Token} {rest : List Char}

theorem mark {character : Char} {token : Token} (known : mark? character = some token)
    (behind : TokensText tokens rest) : TokensText (token :: tokens) (character :: rest) :=
  .token (.mark known) (ends_mark known rest) behind

theorem usual {written : WrittenNumeral} (ends : EndsNumber rest)
    (behind : TokensText tokens rest) :
    TokensText (.number written.numeral.number :: tokens) (written.characters ++ rest) := by
  rw [← written.styled_usual]
  exact .token (.number written .usual) ends behind

theorem quoted {content : String} (behind : TokensText tokens rest) :
    TokensText (.text (.ok content) :: tokens) (Text.quote content.toList ++ rest) :=
  .token (.text (quoted_content _)) trivial behind

theorem spaced {spaces : List Char}
    (blank : ∀ character ∈ spaces, Token.isSpace character = true)
    (behind : TokensText tokens rest) : TokensText tokens (spaces ++ rest) := by
  induction spaces with
  | nil => exact behind
  | cons character spaces induction =>
      rw [List.cons_append]
      exact .space (blank character List.mem_cons_self)
        (induction fun other inside => blank other (List.mem_cons_of_mem _ inside))

end TokensText

end SparseQuantum.Json
