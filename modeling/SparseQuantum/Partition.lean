import SparseQuantum.SparseState

/-!
Partitions: groups of slots that share one state, each group in a place of the arena. Every slot in
use belongs to one partition, which the arena finds for it. Partitions are joined when an operation
couples their slots and never split, except that a slot can leave its own. Places that become vacant
are used again, the last one first.
-/

namespace SparseQuantum

structure Partition (R : Type) where
  state : SparseState R
  /-- The slots whose positions the state describes. -/
  members : List Nat

structure Arena (R : Type) where
  partitions : Array (Partition R)
  /-- The vacant places, the last one to become vacant first. -/
  vacant : List Nat
  /-- The place of the partition that owns a slot. -/
  owners : Std.ExtTreeMap Nat Nat compare

namespace Partition

variable {R : Type} [Scalar R]

/-- What stands in a vacant place. -/
def vacant : Partition R := ⟨.ground, []⟩

def singleton (slot : Nat) : Partition R := ⟨.ground, [slot]⟩

end Partition

namespace Arena

variable {R : Type} [Scalar R]

def empty : Arena R := ⟨#[], [], .empty⟩

def owner? (arena : Arena R) (slot : Nat) : Option Nat := arena.owners[slot]?

def ownerOf (arena : Arena R) (slot : Nat) : Except Fault Nat :=
  match arena.owner? slot with
  | some place => .ok place
  | none => .error (.unownedSlot slot)

def partition (arena : Arena R) (place : Nat) : Except Fault (Partition R) :=
  match arena.partitions[place]? with
  | some partition => .ok partition
  | none => .error (.arenaPlace place)

def setPartition (arena : Arena R) (place : Nat) (partition : Partition R) :
    Except Fault (Arena R) :=
  if place < arena.partitions.size then
    .ok { arena with partitions := arena.partitions.setIfInBounds place partition }
  else .error (.arenaPlace place)

def setState (arena : Arena R) (place : Nat) (state : SparseState R) : Except Fault (Arena R) := do
  let partition ← arena.partition place
  arena.setPartition place { partition with state }

def count (arena : Arena R) : Except Fault Nat :=
  if arena.vacant.length ≤ arena.partitions.size then
    .ok (arena.partitions.size - arena.vacant.length)
  else .error .partitionCount

def insertSingleton (arena : Arena R) (slot : Nat) : Except Fault (Arena R) :=
  match arena.vacant with
  | place :: vacant => do
      let arena ← { arena with vacant }.setPartition place (.singleton slot)
      .ok { arena with owners := arena.owners.insert slot place }
  | [] =>
      .ok
        { arena with
          partitions := arena.partitions.push (.singleton slot)
          owners := arena.owners.insert slot arena.partitions.size }

/-- Moves the slots of one partition to another, whose state becomes that of both. -/
def absorb (arena : Arena R) (survivor absorbed : Nat) : Except Fault (Arena R) := do
  let taken ← arena.partition absorbed
  let arena ← arena.setPartition absorbed .vacant
  let target ← arena.partition survivor
  let arena ← arena.setPartition survivor
    ⟨target.state.tensor taken.state, target.members ++ taken.members⟩
  .ok
    { arena with
      vacant := absorbed :: arena.vacant
      owners := taken.members.foldl (fun owners slot => owners.insert slot survivor) arena.owners }

/-- Joins the partition at `survivor` with those of the slots, in order. -/
def absorbAll (survivor : Nat) (arena : Arena R) : List Nat → Except Fault (Arena R)
  | [] => .ok arena
  | slot :: rest => do
      let place ← arena.ownerOf slot
      if place = survivor then absorbAll survivor arena rest
      else absorbAll survivor (← arena.absorb survivor place) rest

/-- The place of the partition that owns `first` and now all of `others` too. -/
def merge (arena : Arena R) (first : Nat) (others : List Nat) : Except Fault (Nat × Arena R) := do
  let survivor ← arena.ownerOf first
  .ok (survivor, ← absorbAll survivor arena others)

/-- Takes `slot` out of its partition, which goes when that was its last one. The slot must be 0 in
the partition's state. -/
def detach (arena : Arena R) (slot : Nat) : Except Fault (Arena R) :=
  match arena.owner? slot with
  | none => .ok arena
  | some place => do
      let owned ← arena.partition place
      let members := owned.members.filter (· ≠ slot)
      let arena := { arena with owners := arena.owners.erase slot }
      if members.isEmpty then
        let arena ← arena.setPartition place .vacant
        .ok { arena with vacant := place :: arena.vacant }
      else arena.setPartition place { owned with members }

end Arena

end SparseQuantum
