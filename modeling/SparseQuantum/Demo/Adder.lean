import SparseQuantum.Demo.Bell

/-!
The demonstration of addition: the sum of a value and a constant on a register of qubits, maybe with
both values of the least significant qubit at once.
-/

namespace SparseQuantum.Demo

open CommandLine

structure AdderOptions where
  width : UInt64
  value : UInt64
  offset : Int64
  superpose : Bool
  shots : UInt64
  seed : UInt64
  deriving DecidableEq, Repr

namespace AdderOptions

def rules : List OptionRule :=
  [⟨"width", some 'n', .valued false⟩, ⟨"value", none, .valued false⟩,
    ⟨"offset", none, .valued true⟩, ⟨"superpose", none, .flag⟩,
    ⟨"shots", some 's', .valued false⟩, ⟨"seed", none, .valued false⟩, verboseRule]

def read (arguments : List String) : Option AdderOptions := do
  let given ← CommandLine.read rules arguments
  let offset? (text : String) := (Text.readInt64 text.toList).toOption
  some ⟨← given.value? "width" number? 4, ← given.value? "value" number? 6,
    ← given.value? "offset" offset? 11, given.has "superpose",
    ← given.value? "shots" number? 200, ← given.value? "seed" number? 1⟩

def defect? (options : AdderOptions) : Option String :=
  if options.width = 0 ∨ 63 < options.width then
    some ("width must be in 1..=63, got " ++ toString options.width.toNat)
  else if 1 <<< options.width.toNat ≤ options.value.toNat then
    some ("value " ++ toString options.value.toNat ++ " does not fit in " ++
      toString options.width.toNat ++ " qubits")
  else none

def expected (options : AdderOptions) : Int :=
  (options.value.toNat + options.offset.toInt) % (1 <<< options.width.toNat : Nat)

end AdderOptions

def adderReport (settings : Settings) (options : AdderOptions) : Report Unit := do
  if let some defect := options.defect? then throw defect
  let width := options.width.toNat
  Report.title "Adder Plugin Demo"
  Report.heading "Problem Setup"
  Report.entry "Width" (toString width)
  Report.entry "Value" (toString options.value.toNat)
  Report.entry "Offset" (toString options.offset.toInt)
  Report.entry "Expected (no superposition)" (toString options.expected)
  Report.heading "Outcomes"
  let program : Program Float := adder width options.value options.offset options.superpose
  let counts ← Report.orFail SampleStop.message
    (program.sample settings budget outcomeRegister options.shots.toNat options.seed)
  Report.counts width counts

end SparseQuantum.Demo
