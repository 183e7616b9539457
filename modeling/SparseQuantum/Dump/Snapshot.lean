import SparseQuantum.Dump
import SparseQuantum.Dump.Directory
import SparseQuantum.Json.Reader
import SparseQuantum.Json.Value

/-!
Snapshots: dumps as compact JSON texts, and the files that hold them. A snapshot file has a name of
its own, made from a random identifier.
-/

namespace SparseQuantum

open Json

/-! ### Writing -/

def Amplitude.toJson (amplitude : Amplitude Float) : Value :=
  .array [.real amplitude.re, .real amplitude.im]

def DumpGroup.toJson (group : DumpGroup Float) : Value :=
  .object
    [("basis", .array (group.pattern.map fun word => .ofNat word.toNat)),
      ("amplitudes", .array (group.amplitudes.map Amplitude.toJson))]

def Dump.toJson (dump : Dump Float) : Value :=
  .object
    [("num_qubits", .ofNat dump.qubits), ("entries", .array (dump.groups.map DumpGroup.toJson))]

def Dump.snapshot (dump : Dump Float) : String := dump.toJson.compact

/-! ### Reading -/

def Amplitude.read (tree : Tree) : Except Flaw (Amplitude Float) := do
  match ← tree.readTuple 2 with
  | [re, im] => .ok ⟨re, im⟩
  | _ => .error .mismatched

def readWord (tree : Tree) : Except Flaw Word := do .ok (← tree.readUInt64).toBitVec

namespace DumpGroup

structure Parts where
  pattern : Option (List Word) := none
  amplitudes : Option (List (Amplitude Float)) := none

def fields : List (RecordField Parts) :=
  [⟨"basis", (·.pattern.isSome), fun tree parts => do
      .ok { parts with pattern := some (← tree.readList readWord) }⟩,
    ⟨"amplitudes", (·.amplitudes.isSome), fun tree parts => do
      .ok { parts with amplitudes := some (← tree.readList Amplitude.read) }⟩]

def Parts.complete (parts : Parts) : Option (DumpGroup Float) := do
  .some ⟨← parts.pattern, ← parts.amplitudes⟩

def read (tree : Tree) : Except Flaw (DumpGroup Float) :=
  tree.readRecord fields ⟨none, none⟩ Parts.complete

end DumpGroup

namespace Dump

structure Parts where
  qubits : Option Nat := none
  groups : Option (List (DumpGroup Float)) := none

def fields : List (RecordField Parts) :=
  [⟨"num_qubits", (·.qubits.isSome), fun tree parts => do
      .ok { parts with qubits := some (← tree.readUInt64).toNat }⟩,
    ⟨"entries", (·.groups.isSome), fun tree parts => do
      .ok { parts with groups := some (← tree.readList DumpGroup.read) }⟩]

def Parts.complete (parts : Parts) : Option (Dump Float) := do
  .some ⟨← parts.qubits, ← parts.groups⟩

def read (tree : Tree) : Except Flaw (Dump Float) :=
  tree.readRecord fields ⟨none, none⟩ Parts.complete

def ofSnapshot (text : String) : Except Flaw (Dump Float) := readDocument read text

end Dump

/-! ### Files -/

structure SnapshotFile where
  directory : String
  name : String
  content : String
  deriving DecidableEq, Repr

namespace SnapshotFile

def hexText (digits : Nat) (value : Nat) : String :=
  let text := Nat.toDigits 16 (value % Nat.pow 16 digits)
  String.ofList (List.replicate (digits - text.length) '0' ++ text)

def identifier (random : BitVec 128) : String :=
  let bits := random.toNat
  "-".intercalate
    [hexText 8 (bits >>> 96), hexText 4 (bits >>> 80), "4" ++ hexText 3 (bits >>> 64),
      hexText 4 (0x8000 + (bits >>> 48) % 0x4000), hexText 12 bits]

def nameOf (random : BitVec 128) : String := "dump-" ++ identifier random ++ ".json"

/-- Whether the file can be made where it belongs. -/
def isWritable (file : SnapshotFile) : Bool := Directory.canHold file.directory file.name

end SnapshotFile

def Dump.file (dump : Dump Float) (directory : String) (random : BitVec 128) : SnapshotFile :=
  ⟨directory, SnapshotFile.nameOf random, dump.snapshot⟩

end SparseQuantum
