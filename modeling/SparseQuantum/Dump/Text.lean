import SparseQuantum.Decimal.Text
import SparseQuantum.Dump

/-!
Dumps as text for people: a line a group, with the pattern between a bar and a bracket, position 0
first, and each amplitude with a sign and six places for both parts.
-/

namespace SparseQuantum

def Amplitude.text (amplitude : Amplitude Float) : String :=
  Decimal.fixedSigned 6 amplitude.re ++ Decimal.fixedSigned 6 amplitude.im ++ "i"

namespace DumpGroup

def patternBit (group : DumpGroup Float) (position : Nat) : Bool :=
  (group.pattern[position / wordBits]?.getD 0).getLsbD (position % wordBits)

def text (qubits : Nat) (group : DumpGroup Float) : String :=
  let bits := (List.range qubits).map fun position =>
    if group.patternBit position then '1' else '0'
  "|" ++ String.ofList bits ++ "⟩" ++
    String.join (group.amplitudes.map fun amplitude => " " ++ amplitude.text) ++ "\n"

end DumpGroup

def Dump.text (dump : Dump Float) : String :=
  String.join (dump.groups.map (DumpGroup.text dump.qubits))

end SparseQuantum
