/-!
Texts between double quotes. The form of JSON texts writes control characters as escapes of four hex
digits; the form of descriptions writes them in braces. All other characters stand for themselves.
-/

namespace SparseQuantum.Text

def hexDigit (value : Nat) : Char :=
  if value < 10 then Char.ofNat ('0'.toNat + value) else Char.ofNat ('a'.toNat + (value - 10))

def controlEscape (code : Nat) : List Char :=
  ['\\', 'u', '0', '0', hexDigit (code / 16), hexDigit (code % 16)]

def quoteCharacter (character : Char) : List Char :=
  if character = '"' then ['\\', '"']
  else if character = '\\' then ['\\', '\\']
  else if character = '\n' then ['\\', 'n']
  else if character = '\r' then ['\\', 'r']
  else if character = '\t' then ['\\', 't']
  else if character.toNat = 0x08 then ['\\', 'b']
  else if character.toNat = 0x0C then ['\\', 'f']
  else if character.toNat < 0x20 then controlEscape character.toNat
  else [character]

def quote (text : List Char) : List Char := '"' :: text.flatMap quoteCharacter ++ ['"']

def hexDigits (value : Nat) : List Char := Nat.toDigits 16 value

def describeCharacter (character : Char) : List Char :=
  if character = '"' then ['\\', '"']
  else if character = '\\' then ['\\', '\\']
  else if character = '\n' then ['\\', 'n']
  else if character = '\r' then ['\\', 'r']
  else if character = '\t' then ['\\', 't']
  else if character.toNat = 0 then ['\\', '0']
  else if character.toNat < 0x20 ∨ (0x7F ≤ character.toNat ∧ character.toNat < 0xA0) then
    ['\\', 'u', '\x7b'] ++ hexDigits character.toNat ++ ['\x7d']
  else [character]

def describe (text : String) : String :=
  String.ofList ('"' :: text.toList.flatMap describeCharacter ++ ['"'])

end SparseQuantum.Text
