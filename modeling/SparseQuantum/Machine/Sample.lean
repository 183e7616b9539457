import SparseQuantum.Machine

/-!
Sampling: a program is run once a shot, each shot with the next seed, and the values that a register
is left with are counted. Seeds wrap around. The first shot that fails ends the sampling.
-/

namespace SparseQuantum

abbrev Counts := Std.ExtTreeMap Int Nat compare

namespace Counts

def add (counts : Counts) (value : Int) : Counts :=
  counts.alter value fun old => some (old.getD 0 + 1)

def total (counts : Counts) : Nat := counts.foldl (fun total _ count => total + count) 0

end Counts

inductive SampleStop (R : Type) where
  | error (error : MachineError R)
  | fault (fault : Fault)
  /-- A shot takes too many blocks. -/
  | exhausted

def SampleStop.message : SampleStop Float → String
  | .error reason => reason.message
  | .fault _ => "the program leaves its domain"
  | .exhausted => "the program takes too many blocks"

namespace Machine

variable {R : Type} [Scalar R]

def shoot (machine : Machine R) (settings : Settings) (budget : Nat) (register : RegisterId)
    (seed : UInt64) : Except (SampleStop R) (Int64 × Machine R) :=
  match (machine.withSeed settings seed).run settings budget with
  | none => .error .exhausted
  | some report =>
      match report.result with
      | .ok () => .ok (report.machine.simulator.register register, report.machine)
      | .error (.failure label instruction cause) =>
          .error (.error (.failure label instruction cause))
      | .error (.fault fault) => .error (.fault fault)

/-- Shoots `shots` times from `seed` on, counting on from `counts`. -/
def tally (settings : Settings) (budget : Nat) (register : RegisterId) :
    Nat → UInt64 → Machine R → Counts → Except (SampleStop R) Counts
  | 0, _, _, counts => .ok counts
  | shots + 1, seed, machine, counts =>
      match machine.shoot settings budget register seed with
      | .error stop => .error stop
      | .ok (value, machine) =>
          tally settings budget register shots (seed + 1) machine (counts.add value.toInt)

end Machine

namespace Program

variable {R : Type} [Scalar R]

def sample (program : Program R) (settings : Settings) (budget : Nat) (register : RegisterId)
    (shots : Nat) (seed : UInt64) : Except (SampleStop R) Counts :=
  match Machine.ofProgram settings program with
  | .error error => .error (.error (.program error))
  | .ok machine => machine.tally settings budget register shots seed .empty

end Program

end SparseQuantum
