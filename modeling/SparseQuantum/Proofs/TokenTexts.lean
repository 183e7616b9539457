import Mathlib
import SparseQuantum.Proofs.WrittenNumerals

/-!
# The texts of tokens

All ways to write tokens: a character between quotes as itself or escaped, a number with any digits
and exponent, and white space wherever one likes before, between and behind the tokens. The scanner
finds in such a text exactly the tokens that were written.
-/

namespace SparseQuantum.Json

set_option autoImplicit false

open Token

/-! ### Characters between quotes -/

def escapes : List (Char × Char) :=
  [('"', '"'), ('\\', '\\'), ('/', '/'), ('b', '\x08'), ('f', '\x0C'), ('n', '\n'), ('r', '\r'),
    ('t', '\t')]

def IsHexDigit (value : Nat) (character : Char) : Prop :=
  value < 16 ∧ (character = Nat.digitChar value ∨ character = (Nat.digitChar value).toUpper)

inductive UnitText : Nat → List Char → Prop where
  | digits {first second third fourth : Nat} {a b c d : Char} (high : IsHexDigit first a)
      (upper : IsHexDigit second b) (lower : IsHexDigit third c) (low : IsHexDigit fourth d) :
      UnitText (((first * 16 + second) * 16 + third) * 16 + fourth) ['\\', 'u', a, b, c, d]

inductive CharacterText : Char → List Char → Prop where
  | plain {character : Char} (quote : character ≠ '"') (slash : character ≠ '\\')
      (printed : 0x20 ≤ character.toNat) : CharacterText character [character]
  | escaped {letter character : Char} (known : (letter, character) ∈ escapes) :
      CharacterText character ['\\', letter]
  | unit {code : Nat} {characters : List Char} (written : UnitText code characters)
      (high : isHighSurrogate code = false) (low : isLowSurrogate code = false) :
      CharacterText (Char.ofNat code) characters
  | pair {high low : Nat} {front back : List Char} (first : UnitText high front)
      (second : UnitText low back) (isHigh : isHighSurrogate high = true)
      (isLow : isLowSurrogate low = true) :
      CharacterText (Char.ofNat (joinSurrogates high low)) (front ++ back)

inductive ContentText : List Char → List Char → Prop where
  | nil : ContentText [] []
  | cons {character : Char} {written content characters : List Char}
      (first : CharacterText character written) (others : ContentText content characters) :
      ContentText (character :: content) (written ++ characters)

namespace Token

theorem escape_known : ∀ known ∈ escapes, escape? known.1 = some known.2 ∧ known.1 ≠ 'u' := by
  decide

theorem hex_value_digit {value : Nat} {character : Char} (digit : IsHexDigit value character) :
    hexValue? character = some value := by
  have all : ∀ value < 16, hexValue? (Nat.digitChar value) = some value ∧
      hexValue? (Nat.digitChar value).toUpper = some value := by decide
  rcases digit with ⟨small, rfl | rfl⟩
  · exact (all value small).1
  · exact (all value small).2

def TextState.clean (read : List Char) : TextState := ⟨read, none, none⟩

theorem read_text_unit {code : Nat} {characters : List Char} (written : UnitText code characters)
    (state : TextState) (rest : List Char) :
    readText state (characters ++ rest) = readText (state.pushUnit code) rest := by
  cases written with
  | digits high upper lower low =>
      show readText state ('\\' :: 'u' :: _ :: _ :: _ :: _ :: rest) = _
      rw [readText]
      simp [hexValues?, hex_value_digit high, hex_value_digit upper, hex_value_digit lower,
        hex_value_digit low]

/-- A character that stands for itself. The cases that come before it begin with a quote or a
backslash. -/
theorem read_text_plain {character : Char} (quote : character ≠ '"') (slash : character ≠ '\\')
    (printed : 0x20 ≤ character.toNat) (read rest : List Char) :
    readText (.clean read) (character :: rest) = readText (.clean (character :: read)) rest := by
  rw [readText, if_neg (Nat.not_lt_of_le printed)]
  · rfl
  · exact quote
  · intro _ _ _ _ _ same
    exact absurd same slash
  · intro _ same
    exact absurd same slash
  · intro _ _ same
    exact absurd same slash
  · intro same
    exact absurd same slash

theorem read_text_escaped {letter character : Char} (known : (letter, character) ∈ escapes)
    (read rest : List Char) :
    readText (.clean read) ('\\' :: letter :: rest) =
      readText (.clean (character :: read)) rest := by
  obtain ⟨meant, other⟩ := escape_known _ known
  rw [readText, meant]
  · rfl
  · intro _ _ _ _ _ same
    exact absurd same other
  · intro same
    exact absurd same other

theorem not_low_of_high {code : Nat} (high : isHighSurrogate code = true) :
    isLowSurrogate code = false := by
  simp only [isHighSurrogate, isLowSurrogate, Bool.and_eq_true, decide_eq_true_eq,
    Bool.and_eq_false_iff, decide_eq_false_iff_not] at high ⊢
  omega

theorem read_text_character {character : Char} {characters : List Char}
    (written : CharacterText character characters) (read rest : List Char) :
    readText (.clean read) (characters ++ rest) = readText (.clean (character :: read)) rest := by
  cases written with
  | plain quote slash printed => exact read_text_plain quote slash printed read rest
  | escaped known => exact read_text_escaped known read rest
  | unit written high low =>
      rw [read_text_unit written]
      simp [TextState.pushUnit, TextState.clean, high, low]
  | pair first second isHigh isLow =>
      -- The first code unit waits for the second.
      rw [List.append_assoc, read_text_unit first, read_text_unit second]
      simp [TextState.pushUnit, TextState.clean, not_low_of_high isHigh, isHigh, isLow]

/-- A text is read to its closing quote. -/
theorem read_text_content {content characters : List Char}
    (written : ContentText content characters) (read rest : List Char) :
    readText (.clean read) (characters ++ '"' :: rest) =
      .closed (.ok (read.reverse ++ content)) rest := by
  induction written generalizing read with
  | nil =>
      rw [List.append_nil]
      rfl
  | cons first others induction =>
      rw [List.append_assoc, read_text_character first, induction, List.reverse_cons,
        List.append_assoc]
      rfl

/-! ### Tokens -/

def mark? : Char → Option Token
  | '[' => some .openArray
  | ']' => some .closeArray
  | '\x7b' => some .openObject
  | '\x7d' => some .closeObject
  | ',' => some .comma
  | ':' => some .colon
  | _ => none

end Token

/-- A token and the ways to write it. -/
inductive TokenText : Token → List Char → Prop where
  | mark {character : Char} {token : Token} (known : mark? character = some token) :
      TokenText token [character]
  | nullWord : TokenText .null ['n', 'u', 'l', 'l']
  | trueWord : TokenText (.bool true) ['t', 'r', 'u', 'e']
  | falseWord : TokenText (.bool false) ['f', 'a', 'l', 's', 'e']
  | number (written : WrittenNumeral) (style : ExponentStyle) :
      TokenText (.number written.numeral.number) (written.styled style)
  | text {content : String} {characters : List Char}
      (written : ContentText content.toList characters) :
      TokenText (.text (.ok content)) ('"' :: characters ++ ['"'])

/-- The token does not go on into the text behind it, as a number might. -/
def EndsToken : Token → List Char → Prop
  | .number _, rest => EndsNumber rest
  | _, _ => True

/-- The characters are those of the tokens, with white space before, between and behind them. -/
inductive TokensText : List Token → List Char → Prop where
  | finished : TokensText [] []
  | space {character : Char} {tokens : List Token} {rest : List Char}
      (blank : isSpace character = true) (behind : TokensText tokens rest) :
      TokensText tokens (character :: rest)
  | token {token : Token} {tokens : List Token} {characters rest : List Char}
      (first : TokenText token characters) (ends : EndsToken token rest)
      (behind : TokensText tokens rest) : TokensText (token :: tokens) (characters ++ rest)

namespace Token

theorem eq_of_is_space {character : Char} (blank : isSpace character = true) :
    character = ' ' ∨ character = '\n' ∨ character = '\t' ∨ character = '\r' := by
  simpa [isSpace, or_assoc] using blank

theorem scan_space {character : Char} (blank : isSpace character = true) (count : Nat)
    (rest : List Char) : scanUpTo count (character :: rest) = scanUpTo count rest := by
  cases count with
  | zero => rfl
  | succ count => rw [scanUpTo, scanUpTo, List.dropWhile_cons_of_pos blank]

theorem scan_first {character : Char} {rest behind : List Char} {token : Token}
    (solid : isSpace character = false) (quote : character ≠ '"')
    (reads : first character rest = (token, some behind)) (count : Nat) :
    scanUpTo (count + 1) (character :: rest) = token :: scanUpTo count behind := by
  rw [scanUpTo, List.dropWhile_cons_of_neg (by simp [solid])]
  split
  · next nothing => exact absurd nothing (by simp)
  · next shape => exact absurd (List.cons.inj shape).1 quote
  · next shape =>
    obtain ⟨same, others⟩ := List.cons.inj shape
    rw [← same, ← others, reads]

theorem scan_text {content : String} {characters : List Char}
    (written : ContentText content.toList characters) (rest : List Char) (count : Nat) :
    scanUpTo (count + 1) ('"' :: (characters ++ '"' :: rest)) =
      text (.ok content) :: scanUpTo count rest := by
  have read : readText .start (characters ++ '"' :: rest) = .closed (.ok content.toList) rest :=
    read_text_content written [] rest
  rw [scanUpTo, List.dropWhile_cons_of_neg (by decide)]
  simp only [read]
  show text (.ok (String.ofList content.toList)) :: _ = _
  rw [String.ofList_toList]

theorem mark_first {character : Char} {token : Token} (known : mark? character = some token) :
    isSpace character = false ∧ character ≠ '"' ∧
      ∀ rest, first character rest = (token, some rest) := by
  unfold mark? at known
  split at known
  case h_7 => exact absurd known (by simp)
  all_goals exact ⟨by decide, by decide, fun rest => by rw [← Option.some.inj known]; rfl⟩

/-- The first character of a written number is no other token's. -/
theorem number_first (written : WrittenNumeral) (style : ExponentStyle) :
    ∃ character rest, written.styled style = character :: rest ∧
      (character = '-' ∨ character.isDigit = true) := by
  obtain ⟨digit, others, shape, isDigit⟩ := written.magnitude_first style
  rw [WrittenNumeral.styled]
  split
  · exact ⟨'-', _, rfl, .inl rfl⟩
  · exact ⟨digit, others, shape, .inr isDigit⟩

theorem scan_number (written : WrittenNumeral) (style : ExponentStyle) {rest : List Char}
    (ends : EndsNumber rest) (count : Nat) :
    scanUpTo (count + 1) (written.styled style ++ rest) =
      .number written.numeral.number :: scanUpTo count rest := by
  obtain ⟨character, others, shape, starts⟩ := number_first written style
  have read := written.take_numeral_styled style ends
  rw [shape, List.cons_append] at read ⊢
  have number : first character (others ++ rest) =
      (.number written.numeral.number, some rest) := by
    unfold first
    split
    case h_10 => rw [if_pos starts, read]
    all_goals exact absurd starts (by decide)
  apply scan_first _ _ number
  · by_contra blank
    rcases eq_of_is_space (Bool.not_eq_false _ ▸ blank) with same | same | same | same
    all_goals exact absurd (same ▸ starts) (by decide)
  · rintro rfl
    exact absurd starts (by decide)

end Token

/-- Whichever way a token is written, the scanner takes it from the front. -/
theorem TokenText.scan {token : Token} {characters rest : List Char}
    (written : TokenText token characters) (ends : EndsToken token rest) (count : Nat) :
    scanUpTo (count + 1) (characters ++ rest) = token :: scanUpTo count rest := by
  cases written with
  | mark known =>
      obtain ⟨solid, quote, reads⟩ := mark_first known
      exact scan_first solid quote (reads rest) count
  | nullWord | trueWord | falseWord => exact scan_first (by decide) (by decide) rfl count
  | number written style => exact scan_number written style ends count
  | text written =>
      simp only [List.cons_append, List.append_assoc, List.nil_append]
      exact scan_text written rest count

theorem TokenText.nonempty {token : Token} {characters : List Char}
    (written : TokenText token characters) : 0 < characters.length := by
  cases written with
  | number written style =>
      obtain ⟨character, others, shape, _⟩ := number_first written style
      rw [shape]
      exact Nat.succ_pos _
  | _ => exact Nat.succ_pos _

namespace TokensText

variable {tokens : List Token} {text : List Char}

theorem scan_up_to (written : TokensText tokens text) (spare : Nat) :
    scanUpTo (tokens.length + spare) text = tokens := by
  induction written with
  | finished => cases spare <;> rfl
  | space blank behind induction => rw [scan_space blank, induction]
  | token first ends behind induction =>
      rw [List.length_cons, Nat.add_right_comm, first.scan ends, induction]

theorem length_le (written : TokensText tokens text) : tokens.length ≤ text.length := by
  induction written with
  | finished => exact Nat.le_refl _
  | space blank behind induction => exact Nat.le_succ_of_le induction
  | token first ends behind induction =>
      have some := first.nonempty
      rw [List.length_cons, List.length_append]
      omega

theorem scan (written : TokensText tokens text) : Token.scan text = tokens := by
  rw [Token.scan, ← Nat.add_sub_cancel' written.length_le, written.scan_up_to]

end TokensText

end SparseQuantum.Json
