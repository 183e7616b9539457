import Mathlib
import SparseQuantum.Proofs.Positions
import SparseQuantum.SparseState.Gates
import SparseQuantum.SparseState.Measurement

/-!
# Sparse states entry by entry

A sparse state is described by the amplitude that each basis state has in it, if any. This module
says so for every operation on states: exactly where basis states are moved one to one, and as the
origin of every stored basis state where several may meet.
-/

namespace SparseQuantum

set_option autoImplicit false

variable {R : Type}

namespace Amplitudes

theorem get_foldl_insert {start : Amplitudes R} {entries : List (BasisState × Amplitude R)}
    {index : BasisState} {amplitude : Amplitude R}
    (found : (entries.foldl (fun amplitudes entry => amplitudes.insert entry.1 entry.2)
      start)[index]? = some amplitude) :
    (index, amplitude) ∈ entries ∨ start[index]? = some amplitude := by
  induction entries generalizing start with
  | nil => exact Or.inr found
  | cons entry rest induction =>
      rw [List.foldl_cons] at found
      rcases induction found with later | first
      · exact Or.inl (List.mem_cons_of_mem _ later)
      · rw [Std.ExtTreeMap.getElem?_insert] at first
        split_ifs at first with same
        · have key : entry.1 = index := Std.LawfulEqOrd.eq_of_compare same
          have value : entry.2 = amplitude := Option.some.inj first
          rw [← key, ← value]
          exact Or.inl List.mem_cons_self
        · exact Or.inr first

theorem mem_of_get_entries {entries : List (BasisState × Amplitude R)} {index : BasisState}
    {amplitude : Amplitude R} (found : (ofEntries entries)[index]? = some amplitude) :
    (index, amplitude) ∈ entries := by
  rw [ofEntries, Std.ExtTreeMap.ofList_eq_foldl] at found
  rcases get_foldl_insert found with member | start
  · exact member
  · rw [Std.ExtTreeMap.getElem?_empty] at start
    exact absurd start (by simp)

def Distinct (entries : List (BasisState × Amplitude R)) : Prop :=
  entries.Pairwise fun first second => first.1 ≠ second.1

theorem get_entries_iff {entries : List (BasisState × Amplitude R)} (distinct : Distinct entries)
    (index : BasisState) (amplitude : Amplitude R) :
    (ofEntries entries)[index]? = some amplitude ↔ (index, amplitude) ∈ entries := by
  constructor
  · exact mem_of_get_entries
  · intro member
    apply Std.ExtTreeMap.getElem?_ofList_of_mem Std.ReflOrd.compare_self _ member
    exact distinct.imp fun different same => different (Std.LawfulEqOrd.eq_of_compare same)

theorem distinct_to_list (amplitudes : Amplitudes R) : Distinct amplitudes.toList :=
  amplitudes.distinct_keys_toList.imp fun different same =>
    different (by rw [same]; exact Std.ReflOrd.compare_self)

theorem mem_to_list_iff (amplitudes : Amplitudes R) (index : BasisState)
    (amplitude : Amplitude R) :
    (index, amplitude) ∈ amplitudes.toList ↔ amplitudes[index]? = some amplitude :=
  Std.ExtTreeMap.mem_toList_iff_getElem?_eq_some

variable [Scalar R]

theorem get_prune (amplitudes : Amplitudes R) (index : BasisState) :
    amplitudes.prune[index]? = amplitudes[index]?.filter Amplitude.isKept := by
  rw [prune, Std.ExtTreeMap.getElem?_filter']

theorem get_accumulate (amplitudes : Amplitudes R) (state index : BasisState)
    (amount : Amplitude R) :
    (amplitudes.accumulate state amount)[index]? =
      if state = index then some ((amplitudes[index]?.getD .zero).add amount)
      else amplitudes[index]? := by
  rw [accumulate, Std.ExtTreeMap.getElem?_alter]
  by_cases same : state = index
  · rw [if_pos (by rw [same]; exact Std.ReflOrd.compare_self), if_pos same, same]
  · rw [if_neg fun equal => same (Std.LawfulEqOrd.eq_of_compare equal), if_neg same]

end Amplitudes

namespace SparseState

open Amplitudes

theorem ext_get {left right : SparseState R} (same : ∀ index, left.get? index = right.get? index) :
    left = right := by
  apply SparseState.ext
  exact Std.ExtTreeMap.ext_getElem? same

theorem mem_entries_iff (state : SparseState R) (index : BasisState) (amplitude : Amplitude R) :
    (index, amplitude) ∈ state.entries ↔ state.get? index = some amplitude :=
  mem_to_list_iff state.amplitudes index amplitude

theorem entries_distinct (state : SparseState R) : Distinct state.entries :=
  distinct_to_list state.amplitudes

theorem length_entries (state : SparseState R) : state.entries.length = state.size :=
  Std.ExtTreeMap.length_toList

/-- The basis state has an amplitude. -/
def Stores (state : SparseState R) (index : BasisState) : Prop :=
  ∃ amplitude, state.get? index = some amplitude

theorem stores_of_entries {entries : List (BasisState × Amplitude R)} {index : BasisState}
    (stored : Stores ⟨ofEntries entries⟩ index) : ∃ entry ∈ entries, entry.1 = index := by
  rcases stored with ⟨amplitude, found⟩
  exact ⟨(index, amplitude), mem_of_get_entries found, rfl⟩

theorem stores_of_mem_entries {state : SparseState R} {entry : BasisState × Amplitude R}
    (member : entry ∈ state.entries) : state.Stores entry.1 :=
  ⟨entry.2, (mem_entries_iff state entry.1 entry.2).1 member⟩

/-! ### Moved basis states -/

theorem stores_rekey {state : SparseState R} {move : BasisState → BasisState}
    {index : BasisState} (stored : (state.rekey move).Stores index) :
    ∃ origin, state.Stores origin ∧ move origin = index := by
  obtain ⟨entry, member, same⟩ := stores_of_entries stored
  obtain ⟨origin, source, moved⟩ := List.mem_map.1 member
  refine ⟨origin.1, stores_of_mem_entries source, ?_⟩
  rw [← same, ← moved]

theorem distinct_rekey {state : SparseState R} {move : BasisState → BasisState}
    (injective : ∀ first second, state.Stores first → state.Stores second →
      move first = move second → first = second) :
    Distinct (state.entries.map fun entry => (move entry.1, entry.2)) := by
  rw [Distinct, List.pairwise_map]
  refine state.entries_distinct.imp_of_mem ?_
  intro first second firstMember secondMember different same
  exact different (injective first.1 second.1 (stores_of_mem_entries firstMember)
    (stores_of_mem_entries secondMember) same)

/-- Where distinct basis states stay distinct, each takes its amplitude along. -/
theorem get_rekey_iff {state : SparseState R} {move : BasisState → BasisState}
    (injective : ∀ first second, state.Stores first → state.Stores second →
      move first = move second → first = second)
    (index : BasisState) (amplitude : Amplitude R) :
    (state.rekey move).get? index = some amplitude ↔
      ∃ origin, state.get? origin = some amplitude ∧ move origin = index := by
  have entries := get_entries_iff (distinct_rekey injective) index amplitude
  rw [show (state.rekey move).get? index = (ofEntries (state.entries.map fun entry =>
    (move entry.1, entry.2)))[index]? from rfl, entries, List.mem_map]
  constructor
  · rintro ⟨entry, member, same⟩
    rw [Prod.mk.injEq] at same
    refine ⟨entry.1, ?_, same.1⟩
    rw [← same.2]
    exact (mem_entries_iff state entry.1 entry.2).1 member
  · rintro ⟨origin, found, same⟩
    exact ⟨(origin, amplitude), (mem_entries_iff state origin amplitude).2 found, by rw [same]⟩

/-- Moving by a bijection is reading through its inverse. -/
theorem get_rekey_inverse (state : SparseState R) {move back : BasisState → BasisState}
    (returns : ∀ index, back (move index) = index) (arrives : ∀ index, move (back index) = index)
    (index : BasisState) : (state.rekey move).get? index = state.get? (back index) := by
  have injective : ∀ first second, state.Stores first → state.Stores second →
      move first = move second → first = second := by
    intro first second _ _ same
    rw [← returns first, same, returns second]
  apply Option.ext
  intro amplitude
  rw [get_rekey_iff injective]
  constructor
  · rintro ⟨origin, found, same⟩
    rw [← same, returns]
    exact found
  · intro found
    exact ⟨back index, found, arrives index⟩

/-! ### The ground state and replaced states -/

variable [Scalar R]

theorem get_ground (index : BasisState) :
    (ground : SparseState R).get? index = if index = .zero then some .one else none := by
  have distinct : Distinct [((.zero : BasisState), (.one : Amplitude R))] :=
    List.pairwise_singleton _ _
  by_cases here : index = .zero
  · rw [if_pos here, here]
    exact (get_entries_iff distinct _ _).2 List.mem_cons_self
  · rw [if_neg here, Option.eq_none_iff_forall_ne_some]
    intro amplitude found
    have member := mem_of_get_entries found
    simp [here] at member

theorem stores_ground {index : BasisState} (stored : (ground : SparseState R).Stores index) :
    index = .zero := by
  rcases stored with ⟨amplitude, found⟩
  rw [get_ground] at found
  by_contra different
  rw [if_neg different] at found
  exact absurd found (by simp)

theorem get_of_amplitudes (amplitudes : Amplitudes R) (index : BasisState) :
    (ofAmplitudes amplitudes).get? index = amplitudes[index]?.filter Amplitude.isKept :=
  get_prune amplitudes index

theorem stores_of_amplitudes {amplitudes : Amplitudes R} {index : BasisState}
    (stored : (ofAmplitudes amplitudes).Stores index) : Stores ⟨amplitudes⟩ index := by
  rcases stored with ⟨amplitude, found⟩
  rw [get_of_amplitudes, Option.filter_eq_some_iff] at found
  exact ⟨amplitude, found.1⟩

/-! ### Gates -/

theorem get_apply_phase (state : SparseState R) (onZero onOne : Option (Amplitude R))
    (target : Nat) (controls : List Nat) (index : BasisState) :
    (state.applyPhase onZero onOne target controls).get? index =
      (state.get? index).map fun amplitude =>
        if index.allOnes controls then
          match if index.isOne target then onOne else onZero with
          | some phase => amplitude.mul phase
          | none => amplitude
        else amplitude := by
  rw [applyPhase, get?, Std.ExtTreeMap.getElem?_map]
  rfl

theorem of_get_apply_phase {state : SparseState R} {onZero onOne : Option (Amplitude R)}
    {target : Nat} {controls : List Nat} {index : BasisState} {amplitude : Amplitude R}
    (found : (state.applyPhase onZero onOne target controls).get? index = some amplitude) :
    ∃ before, state.get? index = some before ∧ (amplitude = before ∨
      ∃ phase, (phase ∈ onZero ∨ phase ∈ onOne) ∧ amplitude = before.mul phase) := by
  rw [get_apply_phase, Option.map_eq_some_iff] at found
  obtain ⟨before, source, same⟩ := found
  refine ⟨before, source, ?_⟩
  rw [← same]
  split_ifs
  · cases onOne with
    | none => exact Or.inl rfl
    | some phase => exact Or.inr ⟨phase, Or.inr rfl, rfl⟩
  · cases onZero with
    | none => exact Or.inl rfl
    | some phase => exact Or.inr ⟨phase, Or.inl rfl, rfl⟩
  · exact Or.inl rfl

theorem stores_apply_phase {state : SparseState R} {onZero onOne : Option (Amplitude R)}
    {target : Nat} {controls : List Nat} {index : BasisState}
    (stored : (state.applyPhase onZero onOne target controls).Stores index) :
    state.Stores index := by
  rcases stored with ⟨amplitude, found⟩
  rw [get_apply_phase, Option.map_eq_some_iff] at found
  rcases found with ⟨before, found, _⟩
  exact ⟨before, found⟩

theorem stores_foldl_accumulate {parts : List (BasisState × Amplitude R)} {start : Amplitudes R}
    {index : BasisState}
    (stored : Stores ⟨parts.foldl (fun amplitudes part => amplitudes.accumulate part.1 part.2)
      start⟩ index) :
    (∃ part ∈ parts, part.1 = index) ∨ Stores ⟨start⟩ index := by
  induction parts generalizing start with
  | nil => exact Or.inr stored
  | cons part rest induction =>
      rw [List.foldl_cons] at stored
      rcases induction stored with ⟨later, member, same⟩ | ⟨amplitude, found⟩
      · exact Or.inl ⟨later, List.mem_cons_of_mem _ member, same⟩
      · rw [get?, get_accumulate] at found
        split_ifs at found with same
        · exact Or.inl ⟨part, List.mem_cons_self, same⟩
        · exact Or.inr ⟨amplitude, found⟩

theorem mem_contributions {matrix : Matrix2 R} {target : Nat} {controls : List Nat}
    {entry part : BasisState × Amplitude R}
    (member : part ∈ contributions matrix target controls entry) :
    part.1 = entry.1 ∨ part.1 = entry.1.flip target := by
  rcases entry with ⟨index, amplitude⟩
  simp only [contributions] at member
  split_ifs at member <;> simp at member <;> grind

theorem stores_apply_matrix {state : SparseState R} {matrix : Matrix2 R} {target : Nat}
    {controls : List Nat} {index : BasisState}
    (stored : (state.applyMatrix matrix target controls).Stores index) :
    ∃ origin, state.Stores origin ∧ (index = origin ∨ index = origin.flip target) := by
  rcases stores_foldl_accumulate (stores_of_amplitudes stored) with
    ⟨part, member, same⟩ | ⟨amplitude, found⟩
  · rcases List.mem_flatMap.1 member with ⟨entry, source, contributes⟩
    refine ⟨entry.1, stores_of_mem_entries source, ?_⟩
    rw [← same]
    exact mem_contributions contributes
  · change (∅ : Amplitudes R)[index]? = some amplitude at found
    rw [Std.ExtTreeMap.getElem?_empty] at found
    exact absurd found (by simp)

theorem stores_apply_gate {state : SparseState R} {gate : Gate R} {target : Nat}
    {controls : List Nat} {index : BasisState}
    (stored : (state.applyGate gate target controls).Stores index) :
    ∃ origin, state.Stores origin ∧ (index = origin ∨ index = origin.flip target) := by
  have phase (onZero onOne : Option (Amplitude R))
      (stored : (state.applyPhase onZero onOne target controls).Stores index) :
      ∃ origin, state.Stores origin ∧ (index = origin ∨ index = origin.flip target) :=
    ⟨index, stores_apply_phase stored, Or.inl rfl⟩
  cases gate with
  | x =>
      obtain ⟨origin, source, moved⟩ := stores_rekey stored
      refine ⟨origin, source, ?_⟩
      rw [← moved]
      split_ifs
      · exact Or.inr rfl
      · exact Or.inl rfl
  | y | h | rotateX | rotateY | u2 | u3 => exact stores_apply_matrix stored
  | z | s | sAdjoint | t | tAdjoint | phase | rotateZ => exact phase _ _ stored

/-! ### Measurement -/

/-- A collapsed state holds what had the outcome before, at 0 after a reset. -/
theorem stores_collapse {state : SparseState R} {position : Nat} {outcome reset : Bool}
    {index : BasisState} (stored : (state.collapse position outcome reset).Stores index) :
    ∃ origin, state.Stores origin ∧ origin.isOne position = outcome ∧
      index = if reset && outcome then origin.flip position else origin := by
  obtain ⟨entry, member, same⟩ := stores_of_entries stored
  obtain ⟨origin, source, moved⟩ := List.mem_map.1 member
  rw [List.mem_filter, beq_iff_eq] at source
  refine ⟨origin.1, stores_of_mem_entries source.1, source.2, ?_⟩
  rw [← same, ← moved]

/-! ### States side by side -/

theorem stores_tensor {left right : SparseState R} {index : BasisState}
    (stored : (left.tensor right).Stores index) :
    ∃ first second, left.Stores first ∧ right.Stores second ∧ index = first.union second := by
  obtain ⟨entry, member, same⟩ := stores_of_entries stored
  obtain ⟨first, leftMember, member⟩ := List.mem_flatMap.1 member
  obtain ⟨second, rightMember, paired⟩ := List.mem_map.1 member
  refine ⟨first.1, second.1, stores_of_mem_entries leftMember,
    stores_of_mem_entries rightMember, ?_⟩
  rw [← same, ← paired]

theorem distinct_tensor {left right : SparseState R}
    (apart : ∀ first second, left.Stores first → right.Stores second →
      first.isDisjoint second = true) :
    Distinct (left.entries.flatMap fun first => right.entries.map fun second =>
      (first.1.union second.1, first.2.mul second.2)) := by
  rw [Distinct, List.pairwise_flatMap]
  have separate {first first' second second' : BasisState × Amplitude R}
      (firstMember : first ∈ left.entries) (firstMember' : first' ∈ left.entries)
      (secondMember : second ∈ right.entries) (secondMember' : second' ∈ right.entries)
      (same : first.1.union second.1 = first'.1.union second'.1) :
      first.1 = first'.1 ∧ second.1 = second'.1 :=
    BasisState.eq_of_same_union same
      (apart _ _ (stores_of_mem_entries firstMember) (stores_of_mem_entries secondMember'))
      (apart _ _ (stores_of_mem_entries firstMember') (stores_of_mem_entries secondMember))
  constructor
  · intro first member
    rw [List.pairwise_map]
    refine right.entries_distinct.imp_of_mem ?_
    intro second second' secondMember secondMember' different same
    exact different (separate member member secondMember secondMember' same).2
  · refine left.entries_distinct.imp_of_mem ?_
    intro first first' firstMember firstMember' different entry member entry' member' same
    obtain ⟨second, secondMember, paired⟩ := List.mem_map.1 member
    obtain ⟨second', secondMember', paired'⟩ := List.mem_map.1 member'
    rw [← paired, ← paired'] at same
    exact different (separate firstMember firstMember' secondMember secondMember' same).1

/-- Side by side, disjoint basis states multiply their amplitudes. -/
theorem get_tensor_iff {left right : SparseState R}
    (apart : ∀ first second, left.Stores first → right.Stores second →
      first.isDisjoint second = true) (index : BasisState) (amplitude : Amplitude R) :
    (left.tensor right).get? index = some amplitude ↔
      ∃ first second leftAmplitude rightAmplitude, left.get? first = some leftAmplitude ∧
        right.get? second = some rightAmplitude ∧ first.union second = index ∧
        leftAmplitude.mul rightAmplitude = amplitude := by
  rw [show (left.tensor right).get? index = (ofEntries (left.entries.flatMap fun first =>
      right.entries.map fun second =>
        (first.1.union second.1, first.2.mul second.2)))[index]? from rfl,
    get_entries_iff (distinct_tensor apart), List.mem_flatMap]
  constructor
  · rintro ⟨first, firstMember, member⟩
    obtain ⟨second, secondMember, paired⟩ := List.mem_map.1 member
    rw [Prod.mk.injEq] at paired
    exact ⟨first.1, second.1, first.2, second.2, (mem_entries_iff left _ _).1 firstMember,
      (mem_entries_iff right _ _).1 secondMember, paired.1, paired.2⟩
  · rintro ⟨first, second, leftAmplitude, rightAmplitude, leftFound, rightFound, joined, product⟩
    refine ⟨(first, leftAmplitude), (mem_entries_iff left _ _).2 leftFound, ?_⟩
    rw [← joined, ← product]
    exact List.mem_map.2 ⟨(second, rightAmplitude), (mem_entries_iff right _ _).2 rightFound, rfl⟩

end SparseState

end SparseQuantum
