import Std.Data.ExtTreeMap

/-!
The names that programs use for qubits and for registers. Both are numbers of 64 bits and ordered as
such.
-/

namespace SparseQuantum

structure QubitId where
  number : UInt64
  deriving DecidableEq, Repr

structure RegisterId where
  number : UInt64
  deriving DecidableEq, Repr

namespace QubitId

def text (qubit : QubitId) : String := "q" ++ toString qubit.number.toNat

instance : Ord QubitId := ⟨compareOn number⟩

instance : Std.TransOrd QubitId := inferInstanceAs (Std.TransCmp (compareOn number))

instance : Std.LawfulEqOrd QubitId where
  compare_self := by
    intro identifier
    exact Std.ReflOrd.compare_self
  eq_of_compare := by
    intro left right same
    have number : left.number = right.number := Std.LawfulEqOrd.eq_of_compare same
    cases left
    cases right
    simp_all

end QubitId

namespace RegisterId

def text (register : RegisterId) : String := "r" ++ toString register.number.toNat

instance : Ord RegisterId := ⟨compareOn number⟩

instance : Std.TransOrd RegisterId := inferInstanceAs (Std.TransCmp (compareOn number))

instance : Std.LawfulEqOrd RegisterId where
  compare_self := by
    intro identifier
    exact Std.ReflOrd.compare_self
  eq_of_compare := by
    intro left right same
    have number : left.number = right.number := Std.LawfulEqOrd.eq_of_compare same
    cases left
    cases right
    simp_all

end RegisterId

end SparseQuantum
