import SparseQuantum.Demo.Command

/-!
The program: its first argument names a demonstration, the others are the demonstration's options.
Settings are taken from the environment.
-/

open SparseQuantum SparseQuantum.Demo

def variableOr (name default : String) : IO String := do
  return (← IO.getEnv name).getD default

def settingsFromEnvironment : IO Settings := do
  let home ← variableOr "HOME" "."
  let temporary ← variableOr "TMPDIR" "/tmp"
  let bytes ← IO.getRandomBytes 8
  let seed := bytes.toList.foldl (fun value byte => value * 256 + byte.toUInt64) 0
  let given ← SettingOverrides.names.mapM fun name => do
    return (name, ← IO.getEnv name)
  let overrides := SettingOverrides.ofLookup fun name => (given.lookup name).join
  return overrides.applyTo ⟨home ++ "/.sparq/plugins", seed, temporary, width⟩

def printOutcome (outcome : Outcome) : IO UInt32 := do
  (← IO.getStdout).putStr outcome.page.output
  (← IO.getStderr).putStr outcome.page.errors
  return .ofNat outcome.status

def main (arguments : List String) : IO UInt32 := do
  let settings ← settingsFromEnvironment
  let outcome := do
    let command ← Command.ofName? (← arguments.head?)
    command.run? settings arguments.tail
  match outcome with
  | some outcome => printOutcome outcome
  | none =>
      IO.eprintln "usage: bell | teleport | adder, each with its options"
      return .ofNat usageStatus
