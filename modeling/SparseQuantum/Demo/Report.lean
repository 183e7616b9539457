import SparseQuantum.Machine.Sample

/-!
The reports of the demonstrations: a page of lines under a title and in sections. A report that
fails keeps what it has written; the failure itself goes to the page of errors.
-/

namespace SparseQuantum.Demo

structure Page where
  output : String
  errors : String

abbrev Report (α : Type) := EStateM String Page α

namespace Report

def write (text : String) : Report Unit :=
  modify fun page => { page with output := page.output ++ text }

def line (text : String) : Report Unit := write (text ++ "\n")

def times (count : Nat) (character : Char) : String :=
  String.ofList (List.replicate count character)

def title (text : String) : Report Unit := do
  line ""
  line (times 60 '═')
  line ("  " ++ text)
  line (times 60 '═')
  line ""

def heading (text : String) : Report Unit := do
  line ""
  line ("▶ " ++ text)
  line (times 40 '─')

def entry (label value : String) : Report Unit := line ("  " ++ label ++ ": " ++ value)

def success (message : String) : Report Unit := line ("✓ " ++ message)

def mishap (message : String) : Report Unit :=
  modify fun page => { page with errors := page.errors ++ "✗ " ++ message ++ "\n" }

def right (width : Nat) (text : String) : String :=
  String.ofList (text.toList.leftpad width ' ')

/-- The two's complement bits of a register, without leading zeros beyond `width` digits. -/
def bits (width : Nat) (value : Int) : String :=
  String.ofList ((Nat.toDigits 2 (BitVec.ofInt registerBits value).toNat).leftpad width '0')

/-- A part of a total in percent, and 0 of nothing. -/
def percentage (part total : Nat) : Float :=
  let share : Float := if total = 0 then 0 else Float.ofNat part / Float.ofNat total
  share * 100

/-- A line for each value, with its bits, its count and its share. -/
def counts (width : Nat) (counts : Counts) : Report Unit :=
  counts.toList.forM fun (value, count) =>
    line ("  |" ++ bits width value ++ "⟩ " ++ right 6 (toString count) ++ " (" ++
      Decimal.fixed 1 (percentage count counts.total) ++ "%)")

def orFail {ε α : Type} (message : ε → String) : Except ε α → Report α
  | .ok value => pure value
  | .error error => throw (message error)

end Report

/-- The programs of the demonstrations have no loops, so this is more than any of them takes. -/
def budget : Nat := 16

structure Outcome where
  status : Nat
  page : Page

def Report.outcome (report : Report Unit) : Outcome :=
  match report.run ⟨"", ""⟩ with
  | .ok () page => ⟨0, page⟩
  | .error message page =>
      ⟨1, { page with errors := page.errors ++ "✗ " ++ message ++ "\n" }⟩

end SparseQuantum.Demo
