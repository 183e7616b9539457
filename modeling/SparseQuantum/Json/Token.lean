import SparseQuantum.Json.Number

/-!
The tokens of a JSON text, up to the first place where none can be read. Reading never fails: the
last token of a defective text says what is wrong with it. A text whose escapes name no character is
a token still, since a reader that ignores the text may go on behind it.
-/

namespace SparseQuantum.Json

/-- What is wrong with a text for the reader at hand. -/
inductive Flaw where
  /-- Not JSON. -/
  | malformed
  /-- Ends too early. -/
  | truncated
  /-- JSON of another shape. -/
  | mismatched
  deriving DecidableEq, Repr

/-- A value that breaks off: what a reader of the value meets, and what one that only looks for its
end meets. -/
structure Break where
  strict : Flaw
  lenient : Flaw
  deriving DecidableEq, Repr

def Break.always (flaw : Flaw) : Break := ⟨flaw, flaw⟩

inductive Token where
  | openArray
  | closeArray
  | openObject
  | closeObject
  | comma
  | colon
  | null
  | bool (value : Bool)
  | number (value : Number)
  /-- A text between quotes; the flaw of its escapes if they name no characters. -/
  | text (content : Except Flaw String)
  | brokenText (ends : Break)
  | broken (ends : Break)

namespace Token

def isSpace (character : Char) : Bool :=
  character = ' ' || character = '\n' || character = '\t' || character = '\r'

/-! ### Words and numbers -/

def afterWord : List Char → List Char → Except Flaw (List Char)
  | [], rest => .ok rest
  | _ :: _, [] => .error .truncated
  | expected :: word, character :: rest =>
      if character = expected then afterWord word rest else .error .malformed

def digitValues (digits : List Char) : List Nat :=
  digits.map fun digit => digit.toNat - '0'.toNat

def takeDigits (text : List Char) : Except Flaw (List Nat × List Char) :=
  match text.takeWhile Char.isDigit, text with
  | [], [] => .error .truncated
  | [], _ => .error .malformed
  | digits, _ => .ok (digitValues digits, text.dropWhile Char.isDigit)

/-- No digit follows a leading zero. -/
def takeWhole (text : List Char) : Except Flaw (List Nat × List Char) :=
  match text with
  | '0' :: next :: _ => if next.isDigit then .error .malformed else takeDigits text
  | _ => takeDigits text

def takeFraction (text : List Char) : Except Flaw (Option (List Nat) × List Char) :=
  match text with
  | '.' :: rest => do
      let (digits, rest) ← takeDigits rest
      .ok (some digits, rest)
  | _ => .ok (none, text)

def exponentOf (negative : Bool) (digits : List Nat) : Int :=
  let magnitude : Nat := digits.foldl (fun value digit => value * 10 + digit) 0
  if negative then -(magnitude : Int) else magnitude

def takeExponent (text : List Char) : Except Flaw (Option Int × List Char) :=
  let signed := fun (negative : Bool) (rest : List Char) => do
    let (digits, rest) ← takeDigits rest
    .ok (some (exponentOf negative digits), rest)
  let exponent := fun (rest : List Char) =>
    match rest with
    | '+' :: rest => signed false rest
    | '-' :: rest => signed true rest
    | _ => signed false rest
  match text with
  | 'e' :: rest => exponent rest
  | 'E' :: rest => exponent rest
  | _ => .ok (none, text)

def takeNumeral (text : List Char) : Except Flaw (Numeral × List Char) := do
  let (negative, text) := match text with
    | '-' :: rest => (true, rest)
    | _ => (false, text)
  let (whole, text) ← takeWhole text
  let (fraction, text) ← takeFraction text
  let (exponent, text) ← takeExponent text
  .ok (⟨negative, whole, fraction, exponent⟩, text)

/-! ### Texts -/

inductive TextEnd where
  | closed (content : Except Flaw (List Char)) (rest : List Char)
  | broken (ends : Break)

def hexValue? (character : Char) : Option Nat :=
  let code := character.toNat
  if '0'.toNat ≤ code ∧ code ≤ '9'.toNat then some (code - '0'.toNat)
  else if 'a'.toNat ≤ code ∧ code ≤ 'f'.toNat then some (code - 'a'.toNat + 10)
  else if 'A'.toNat ≤ code ∧ code ≤ 'F'.toNat then some (code - 'A'.toNat + 10)
  else none

def hexValues? (a b c d : Char) : Option Nat := do
  let a ← hexValue? a
  let b ← hexValue? b
  let c ← hexValue? c
  let d ← hexValue? d
  some (((a * 16 + b) * 16 + c) * 16 + d)

/-- An escape needs four bytes; with fewer left the text ends early, whatever they are. -/
def hexFlaw (rest : List Char) : Flaw :=
  if (String.ofList (rest.take 4)).utf8ByteSize < 4 then .truncated else .malformed

def escape? (character : Char) : Option Char :=
  if character = '"' ∨ character = '\\' ∨ character = '/' then some character
  else if character = 'b' then some '\x08'
  else if character = 'f' then some '\x0C'
  else if character = 'n' then some '\n'
  else if character = 'r' then some '\r'
  else if character = 't' then some '\t'
  else none

def isHighSurrogate (code : Nat) : Bool := 0xD800 ≤ code && code ≤ 0xDBFF

def isLowSurrogate (code : Nat) : Bool := 0xDC00 ≤ code && code ≤ 0xDFFF

def joinSurrogates (high low : Nat) : Nat := (high - 0xD800) * 0x400 + (low - 0xDC00) + 0x10000

/-- How far a text has been read: its characters so far in reverse, a high surrogate that waits for
its partner, and the first flaw of an escape. -/
structure TextState where
  read : List Char
  high : Option Nat
  flaw : Option Flaw

namespace TextState

def start : TextState := ⟨[], none, none⟩

/-- The partner of a waiting surrogate did not come. -/
def settle (state : TextState) : TextState :=
  if state.high.isSome then ⟨state.read, none, some (state.flaw.getD .malformed)⟩ else state

def push (state : TextState) (character : Char) : TextState :=
  ⟨character :: state.settle.read, none, state.settle.flaw⟩

def spoil (state : TextState) : TextState :=
  ⟨state.read, none, some (state.flaw.getD .malformed)⟩

def pushUnit (state : TextState) (code : Nat) : TextState :=
  match state.high with
  | some high =>
      if isLowSurrogate code then
        ⟨Char.ofNat (joinSurrogates high code) :: state.read, none, state.flaw⟩
      else state.spoil
  | none =>
      if state.flaw.isSome then state
      else if isLowSurrogate code then state.spoil
      else if isHighSurrogate code then ⟨state.read, some code, none⟩
      else ⟨Char.ofNat code :: state.read, none, none⟩

def content (state : TextState) : Except Flaw (List Char) :=
  match state.settle.flaw with
  | some flaw => .error flaw
  | none => .ok state.read.reverse

def breakOff (state : TextState) (flaw : Flaw) : TextEnd :=
  .broken ⟨state.flaw.getD flaw, flaw⟩

end TextState

def readText (state : TextState) : List Char → TextEnd
  | [] => state.breakOff .truncated
  | '"' :: rest => .closed state.content rest
  | '\\' :: 'u' :: a :: b :: c :: d :: rest =>
      match hexValues? a b c d with
      | some code => readText (state.pushUnit code) rest
      | none => state.breakOff .malformed
  | '\\' :: 'u' :: rest => state.breakOff (hexFlaw rest)
  | '\\' :: character :: rest =>
      match escape? character with
      | some meant => readText (state.push meant) rest
      | none => state.settle.breakOff .malformed
  | ['\\'] => state.breakOff .truncated
  | character :: rest =>
      if character.toNat < 0x20 then state.settle.breakOff .malformed
      else readText (state.push character) rest

/-! ### All tokens -/

/-- The token at the start of a text that begins with neither space nor quote, and what follows it
if it is no broken one. A number without the digits it needs has no end to look for, so it is
malformed for a reader that passes over it, even where the text ends. -/
def first (character : Char) (rest : List Char) : Token × Option (List Char) :=
  let word := fun (token : Token) (expected : List Char) =>
    match afterWord expected rest with
    | .ok rest => (token, some rest)
    | .error flaw => (.broken (.always flaw), none)
  match character with
  | '[' => (.openArray, some rest)
  | ']' => (.closeArray, some rest)
  | '\x7b' => (.openObject, some rest)
  | '\x7d' => (.closeObject, some rest)
  | ',' => (.comma, some rest)
  | ':' => (.colon, some rest)
  | 'n' => word .null ['u', 'l', 'l']
  | 't' => word (.bool true) ['r', 'u', 'e']
  | 'f' => word (.bool false) ['a', 'l', 's', 'e']
  | _ =>
      if character = '-' ∨ character.isDigit then
        match takeNumeral (character :: rest) with
        | .ok (numeral, rest) => (.number numeral.number, some rest)
        | .error flaw => (.broken ⟨flaw, .malformed⟩, none)
      else (.broken (.always .malformed), none)

def scanUpTo : Nat → List Char → List Token
  | 0, _ => []
  | count + 1, input =>
      match input.dropWhile isSpace with
      | [] => []
      | '"' :: rest =>
          match readText .start rest with
          | .closed content rest => .text (content.map String.ofList) :: scanUpTo count rest
          | .broken ends => [.brokenText ends]
      | character :: rest =>
          match first character rest with
          | (token, some rest) => token :: scanUpTo count rest
          | (token, none) => [token]

/-- All tokens: there are no more of them than characters. -/
def scan (input : List Char) : List Token := scanUpTo input.length input

end Token

end SparseQuantum.Json
