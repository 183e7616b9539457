import SparseQuantum.Decimal.Reading
import SparseQuantum.Demo.Bell

/-!
The demonstration of teleportation: a state is prepared and sent a number of times, each time with
another seed, and the largest deviation of what is received is reported.
-/

namespace SparseQuantum.Demo

open CommandLine

structure TeleportOptions where
  angle : Float
  runs : UInt64
  seed : UInt64

namespace TeleportOptions

def defaultAngle : Float := 1.0471975511965976

def rules : List OptionRule :=
  [⟨"theta", some 't', .valued false⟩, ⟨"runs", some 'r', .valued false⟩,
    ⟨"seed", none, .valued false⟩, verboseRule]

def read (arguments : List String) : Option TeleportOptions := do
  let given ← CommandLine.read rules arguments
  let angle? (text : String) := Decimal.readFloat? text.toList
  some ⟨← given.value? "theta" angle? defaultAngle, ← given.value? "runs" number? 8,
    ← given.value? "seed" number? 7⟩

end TeleportOptions

def probabilityOfZero (angle : Float) : Float :=
  let amplitude := (angle / 2).cos
  amplitude * amplitude

/-- Sends the state once with each of so many seeds. The answer is the largest deviation of the
received probability, `worst` being that of earlier runs. -/
def teleportRuns (settings : Settings) (expected : Float) :
    Nat → UInt64 → Machine Float → Float → Report Float
  | 0, _, _, worst => pure worst
  | runs + 1, seed, machine, worst => do
      let (_, machine) ← Report.orFail SampleStop.message
        (machine.shoot settings budget outcomeRegister seed)
      let simulator := machine.simulator
      let dump ← Report.orFail SimulatorError.message (simulator.dump 0)
      let received := dump.probability 0
      let deviation := (received - expected).abs
      Report.line ("  seed " ++ Report.right 4 (toString seed.toNat) ++
        "  m0=" ++ toString (simulator.register ⟨1⟩).toInt ++
        " m1=" ++ toString (simulator.register ⟨2⟩).toInt ++
        "  P(|0⟩)=" ++ Decimal.fixed 6 received)
      teleportRuns settings expected runs (seed + 1) machine
        (if worst < deviation then deviation else worst)

def tolerance : Float := 1e-9

def teleportReport (settings : Settings) (options : TeleportOptions) : Report Unit := do
  Report.title "Quantum Teleportation Demo"
  let expected := probabilityOfZero options.angle
  Report.heading "Prepared State"
  Report.entry "theta" (Decimal.plain options.angle)
  Report.entry "P(|0⟩)" (Decimal.fixed 6 expected)
  Report.entry "P(|1⟩)" (Decimal.fixed 6 (1 - expected))
  Report.heading "Runs"
  let machine ← Report.orFail ProgramError.message
    (Machine.ofProgram settings (teleport options.angle))
  let worst ← teleportRuns settings expected options.runs.toNat options.seed machine 0
  Report.entry "Max deviation" (Decimal.scientificFixed 2 worst)
  if worst < tolerance then Report.success "State received intact on every run"
  else Report.mishap "Received state differs from the prepared one"

end SparseQuantum.Demo
