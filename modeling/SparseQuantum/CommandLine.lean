/-!
Command lines: options with a long name and maybe a letter. A value stands behind its option, as the
next argument or attached to it; letters may be joined behind one hyphen. Nothing but options is
accepted, so a command line that does not follow its rules is refused as a whole.
-/

namespace SparseQuantum.CommandLine

inductive OptionKind where
  /-- Given at most once, without a value. -/
  | flag
  /-- Given any number of times, without a value. -/
  | counter
  /-- Given at most once; a value may begin with a hyphen only if `hyphenated`. -/
  | valued (hyphenated : Bool)
  deriving DecidableEq, Repr

structure OptionRule where
  name : String
  letter : Option Char
  kind : OptionKind

/-- The options that were given, by name, each with its value or an empty text. -/
abbrev Given := List (String × String)

/-- What has been read, and the option that waits for its value, if one does. -/
structure Progress where
  given : Given
  waiting : Option OptionRule

/-- Options given by their letters, behind one hyphen. What follows the letter of an option with a
value is the value, maybe behind an equals sign. -/
def readLetters (rules : List OptionRule) : List Char → Option Progress
  | [] => some ⟨[], none⟩
  | letter :: rest => do
      let rule ← rules.find? (·.letter == some letter)
      match rule.kind, rest with
      | .valued _, [] => some ⟨[], some rule⟩
      | .valued _, '=' :: value => some ⟨[(rule.name, String.ofList value)], none⟩
      | .valued _, value => some ⟨[(rule.name, String.ofList value)], none⟩
      | _, _ => do
          let progress ← readLetters rules rest
          some { progress with given := (rule.name, "") :: progress.given }

def readName (rules : List OptionRule) (text : List Char) : Option Progress := do
  let name := text.takeWhile (· != '=')
  let rule ← rules.find? (·.name == String.ofList name)
  match rule.kind, text.drop name.length with
  | .valued _, [] => some ⟨[], some rule⟩
  | .valued _, _ :: value => some ⟨[(rule.name, String.ofList value)], none⟩
  | _, [] => some ⟨[(rule.name, "")], none⟩
  | _, _ => none

def isOption (argument : String) : Bool :=
  argument.startsWith "-" && argument != "-"

/-- Reads the arguments, the first being the value of the waiting option, if there is one. Two
hyphens end the options, and nothing may follow. -/
def readArguments (rules : List OptionRule) : Option OptionRule → List String → Option Given
  | none, [] => some []
  | some _, [] => none
  | some rule, value :: rest => do
      if isOption value && rule.kind != .valued true then none
      else some ((rule.name, value) :: (← readArguments rules none rest))
  | none, argument :: rest =>
      match argument.toList with
      | ['-', '-'] => if rest.isEmpty then some [] else none
      | '-' :: '-' :: name => do
          let progress ← readName rules name
          some (progress.given ++ (← readArguments rules progress.waiting rest))
      | '-' :: letter :: letters => do
          let progress ← readLetters rules (letter :: letters)
          some (progress.given ++ (← readArguments rules progress.waiting rest))
      | _ => none

/-- No option but a counter is given twice. -/
def noRepeat (rules : List OptionRule) (given : Given) : Bool :=
  rules.all fun rule => rule.kind == .counter || (given.filter (·.1 == rule.name)).length ≤ 1

def read (rules : List OptionRule) (arguments : List String) : Option Given := do
  let given ← readArguments rules none arguments
  if noRepeat rules given then some given else none

namespace Given

def has (given : Given) (name : String) : Bool := given.any (·.1 == name)

def value? {α : Type} (given : Given) (name : String) (read : String → Option α) (default : α) :
    Option α :=
  match given.lookup name with
  | some text => read text
  | none => some default

end Given

end SparseQuantum.CommandLine
