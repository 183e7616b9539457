import Mathlib
import SparseQuantum.Proofs.MergedPartitions

/-!
# Products of disjoint states

Two states stand side by side where no basis state of the one shares a 1 with a basis state of the
other, which is asked pair by pair. The union of a pair then determines both of its parts, although
nothing says which positions belong to which state. So no product is overwritten: each pair gives
one entry, with the product of the two amplitudes, and there are no other entries.
-/

namespace SparseQuantum

set_option autoImplicit false

variable {R : Type}

namespace SparseState

/-- No basis state of the one shares a 1 with one of the other. -/
def PairwiseDisjoint (left right : SparseState R) : Prop :=
  ∀ first second, left.Stores first → right.Stores second → first.isDisjoint second = true

theorem union_injective {left right : SparseState R} (apart : left.PairwiseDisjoint right)
    {first second first' second' : BasisState} (leftStored : left.Stores first)
    (rightStored : right.Stores second) (leftStored' : left.Stores first')
    (rightStored' : right.Stores second') (same : first.union second = first'.union second') :
    first = first' ∧ second = second' :=
  BasisState.eq_of_same_union same (apart first second' leftStored rightStored')
    (apart first' second leftStored' rightStored)

variable [Scalar R]

theorem get_union {left right : SparseState R} (apart : left.PairwiseDisjoint right)
    {first second : BasisState} {leftAmplitude rightAmplitude : Amplitude R}
    (leftFound : left.get? first = some leftAmplitude)
    (rightFound : right.get? second = some rightAmplitude) :
    (left.tensor right).get? (first.union second) = some (leftAmplitude.mul rightAmplitude) :=
  (get_tensor_iff apart _ _).2
    ⟨first, second, leftAmplitude, rightAmplitude, leftFound, rightFound, rfl, rfl⟩

/-- Side by side, states whose basis states are disjoint pair by pair lose and gain no entry. -/
theorem tensor_lossless {left right : SparseState R} (apart : left.PairwiseDisjoint right) :
    (∀ first second first' second', left.Stores first → right.Stores second →
      left.Stores first' → right.Stores second' →
        first.union second = first'.union second' → first = first' ∧ second = second') ∧
    (left.tensor right).size = left.size * right.size ∧
    (∀ first second leftAmplitude rightAmplitude, left.get? first = some leftAmplitude →
      right.get? second = some rightAmplitude →
        (left.tensor right).get? (first.union second) =
          some (leftAmplitude.mul rightAmplitude)) ∧
    ∀ index, (left.tensor right).Stores index →
      ∃ first second, left.Stores first ∧ right.Stores second ∧ index = first.union second :=
  ⟨fun _ _ _ _ => union_injective apart, size_tensor apart, fun _ _ _ _ => get_union apart,
    fun _ => stores_tensor⟩

/-- Two states over positions that take turns, in the first and in the last word. -/
def evenPlaces : SparseState Float :=
  ⟨.ofEntries [(.zero, ⟨2, 0⟩), (.ofOnes [0, 1022], ⟨0, 3⟩), (.ofOnes [2, 1022], ⟨4, 0⟩)]⟩

def oddPlaces : SparseState Float :=
  ⟨.ofEntries [(.ofOnes [1, 1023], ⟨5, 0⟩), (.ofOnes [3], ⟨0, 7⟩)]⟩

theorem even_odd_lossless :
    evenPlaces.PairwiseDisjoint oddPlaces ∧ (evenPlaces.tensor oddPlaces).size = 6 ∧
      (evenPlaces.tensor oddPlaces).get? (.ofOnes [0, 1, 1022, 1023]) = some ⟨0, 15⟩ := by
  have evenEntries : evenPlaces.entries.Perm
      [(.zero, ⟨2, 0⟩), (.ofOnes [0, 1022], ⟨0, 3⟩), (.ofOnes [2, 1022], ⟨4, 0⟩)] :=
    Amplitudes.entries_perm (by rw [Amplitudes.Distinct]; decide +kernel)
  have oddEntries : oddPlaces.entries.Perm
      [(.ofOnes [1, 1023], ⟨5, 0⟩), (.ofOnes [3], ⟨0, 7⟩)] :=
    Amplitudes.entries_perm (by rw [Amplitudes.Distinct]; decide +kernel)
  have apart : evenPlaces.PairwiseDisjoint oddPlaces := by
    have listed : ∀ first ∈ [BasisState.zero, .ofOnes [0, 1022], .ofOnes [2, 1022]],
        ∀ second ∈ [BasisState.ofOnes [1, 1023], .ofOnes [3]],
          first.isDisjoint second = true := by decide +kernel
    rintro first second ⟨leftAmplitude, leftFound⟩ ⟨rightAmplitude, rightFound⟩
    apply listed
    · exact (evenEntries.map Prod.fst).mem_iff.1
        (List.mem_map.2 ⟨_, (mem_entries_iff _ _ _).2 leftFound, rfl⟩)
    · exact (oddEntries.map Prod.fst).mem_iff.1
        (List.mem_map.2 ⟨_, (mem_entries_iff _ _ _).2 rightFound, rfl⟩)
  obtain ⟨_, size, product, _⟩ := tensor_lossless apart
  refine ⟨apart, ?_, ?_⟩
  · rw [size, ← length_entries, ← length_entries, evenEntries.length_eq, oddEntries.length_eq]
    rfl
  · have left := (mem_entries_iff evenPlaces (.ofOnes [0, 1022]) ⟨0, 3⟩).1
      (evenEntries.mem_iff.2 (by simp))
    have right := (mem_entries_iff oddPlaces (.ofOnes [1, 1023]) ⟨5, 0⟩).1
      (oddEntries.mem_iff.2 (by simp))
    have joined : (BasisState.ofOnes [0, 1022]).union (.ofOnes [1, 1023]) =
        .ofOnes [0, 1, 1022, 1023] := by decide +kernel
    have multiplied : (⟨0, 3⟩ : Amplitude Float).mul ⟨5, 0⟩ = ⟨0, 15⟩ :=
      Amplitude.ext_parts (by decide +kernel) (by decide +kernel)
    rw [← joined, product _ _ _ _ left right, multiplied]

end SparseState

end SparseQuantum
