import SparseQuantum.CommandLine
import SparseQuantum.Demo.Programs
import SparseQuantum.Demo.Report
import SparseQuantum.Dump.Text
import SparseQuantum.Text.Integer

/-!
The demonstration of an entangled pair: the state before it is measured, and a sample of outcomes,
in which both qubits should always agree.
-/

namespace SparseQuantum.Demo

open CommandLine

def number? (text : String) : Option UInt64 := (Text.readUInt64 text.toList).toOption

def verboseRule : OptionRule := ⟨"verbose", some 'v', .counter⟩

structure BellOptions where
  shots : UInt64
  seed : UInt64
  showsProgram : Bool
  deriving DecidableEq, Repr

namespace BellOptions

def rules : List OptionRule :=
  [⟨"shots", some 's', .valued false⟩, ⟨"seed", none, .valued false⟩,
    ⟨"show-program", none, .flag⟩, verboseRule]

def read (arguments : List String) : Option BellOptions := do
  let given ← CommandLine.read rules arguments
  some ⟨← given.value? "shots" number? 1000, ← given.value? "seed" number? 42,
    given.has "show-program"⟩

end BellOptions

def correlated (counts : Counts) : Nat :=
  Counts.total (counts.filter fun value _ => value = 0b00 ∨ value = 0b11)

def bellReport (settings : Settings) (options : BellOptions) : Report Unit := do
  Report.title "Bell Pair Demo"
  let program : Program Float := bell
  if options.showsProgram then
    Report.heading "Program"
    Report.line program.toText
  Report.heading "State Before Measurement"
  let machine ← Report.orFail ProgramError.message (Machine.ofProgram settings program)
  let (_, machine) ← Report.orFail SampleStop.message
    (machine.shoot settings budget outcomeRegister options.seed)
  let dump ← Report.orFail SimulatorError.message (machine.simulator.dump 0)
  Report.write dump.text
  Report.heading "Sampling"
  Report.entry "Shots" (toString options.shots.toNat)
  Report.entry "Seed" (toString options.seed.toNat)
  let shots := options.shots.toNat
  let counts ← Report.orFail SampleStop.message
    (program.sample settings budget outcomeRegister shots options.seed)
  Report.counts 2 counts
  let agreeing := correlated counts
  if agreeing = shots then Report.success "All outcomes correlated"
  else
    Report.mishap
      (toString (shots - agreeing) ++ " of " ++ toString shots ++ " outcomes uncorrelated")

end SparseQuantum.Demo
