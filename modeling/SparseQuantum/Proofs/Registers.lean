import Mathlib
import SparseQuantum.Proofs.PluginBridge

/-!
# Registers of slots

Slots in a list spell a number, the first slot in its highest bit. Writing another number there
changes nothing else, and a basis state is determined by the number and by its other positions.
Adding to the number modulo its range, where all controls are 1, is a permutation of the basis
states, which commutes with moving positions and with restricting to more slots than those involved.
-/

namespace SparseQuantum

set_option autoImplicit false

namespace BasisState

/-! ### The number that slots spell -/

/-- The number at the slots, the first one most significant. -/
def numberAt (index : BasisState) (slots : List Nat) : Nat :=
  slots.foldl (fun value slot => 2 * value + (index.isOne slot).toNat) 0

theorem number_at_concat (index : BasisState) (slots : List Nat) (slot : Nat) :
    index.numberAt (slots ++ [slot]) =
      2 * index.numberAt slots + (index.isOne slot).toNat := by
  rw [numberAt, numberAt, List.foldl_append]
  rfl

theorem test_bit_number_at (index : BasisState) (slots : List Nat) (place : Nat) :
    (index.numberAt slots).testBit place =
      (slots.reverse[place]?.map index.isOne).getD false := by
  induction slots using List.reverseRecOn generalizing place with
  | nil => simp [numberAt]
  | append_singleton slots slot induction =>
      rw [number_at_concat, List.reverse_append, List.reverse_singleton, List.singleton_append]
      cases place with
      | zero =>
          rw [Nat.testBit_zero]
          cases bit : index.isOne slot <;> simp [bit]
      | succ place =>
          have half : (2 * index.numberAt slots + (index.isOne slot).toNat) / 2 =
              index.numberAt slots := by
            have bit := Bool.toNat_le (index.isOne slot)
            omega
          rw [Nat.testBit_succ, half, induction, List.getElem?_cons_succ]

theorem number_at_lt (index : BasisState) (slots : List Nat) :
    index.numberAt slots < 2 ^ slots.length := by
  apply Nat.lt_pow_two_of_testBit
  intro place above
  rw [test_bit_number_at, List.getElem?_eq_none (by simpa using above)]
  rfl

theorem number_at_congr {left right : BasisState} {slots : List Nat}
    (same : ∀ slot ∈ slots, left.isOne slot = right.isOne slot) :
    left.numberAt slots = right.numberAt slots := by
  induction slots using List.reverseRecOn with
  | nil => rfl
  | append_singleton slots slot induction =>
      rw [number_at_concat, number_at_concat, same slot (by simp),
        induction fun other member => same other (List.mem_append_left _ member)]

theorem ext_number_at {left right : BasisState} {slots : List Nat}
    (others : ∀ position, position < width → position ∉ slots →
      left.isOne position = right.isOne position)
    (same : left.numberAt slots = right.numberAt slots) : left = right := by
  apply ext_is_one
  intro position inside
  by_cases member : position ∈ slots
  · obtain ⟨place, below, here⟩ := List.getElem_of_mem (List.mem_reverse.2 member)
    have bits := congrArg (·.testBit place) same
    simp only [test_bit_number_at, List.getElem?_eq_getElem below, here] at bits
    exact bits
  · exact others position inside member

/-- The basis state with `value` spelled at the slots, as far as it fits. -/
def spell (index : BasisState) (slots : List Nat) (value : Nat) : BasisState :=
  ofBits fun position =>
    if position ∈ slots then value.testBit (slots.reverse.idxOf position)
    else index.isOne position

theorem is_one_spell_of_not_mem (index : BasisState) {slots : List Nat} (value : Nat)
    {position : Nat} (absent : position ∉ slots) :
    (index.spell slots value).isOne position = index.isOne position := by
  rw [spell, is_one_of_bits, if_neg absent]
  by_cases inside : position < width
  · simp [inside]
  · rw [is_one_eq_false_of_width_le index (Nat.le_of_not_lt inside), Bool.false_and]

section Slots

variable {slots : List Nat} (distinct : slots.Nodup) (inside : ∀ slot ∈ slots, slot < width)

include distinct inside

theorem number_at_spell (index : BasisState) (value : Nat) :
    (index.spell slots value).numberAt slots = value % 2 ^ slots.length := by
  apply Nat.eq_of_testBit_eq
  intro place
  rw [test_bit_number_at, Nat.testBit_mod_two_pow]
  by_cases below : place < slots.length
  · have here : place < slots.reverse.length := by rw [List.length_reverse]; exact below
    have member : slots.reverse[place] ∈ slots := List.mem_reverse.1 (List.getElem_mem here)
    have counted : slots.reverse.idxOf slots.reverse[place] = place :=
      (List.nodup_reverse.2 distinct).idxOf_getElem place here
    rw [List.getElem?_eq_getElem here, Option.map_some, Option.getD_some, spell, is_one_of_bits,
      if_pos member, counted, decide_eq_true (inside _ member), decide_eq_true below,
      Bool.and_true, Bool.true_and]
  · rw [List.getElem?_eq_none (by simpa using below), decide_eq_false below, Bool.false_and]
    rfl

/-! ### Adding to the number -/

omit distinct inside in
def addAt (slots : List Nat) (amount : Int) (index : BasisState) : BasisState :=
  index.spell slots ((index.numberAt slots + amount) % (2 ^ slots.length : Nat)).toNat

omit distinct inside in
theorem is_one_add_at_of_not_mem (amount : Int) (index : BasisState) {position : Nat}
    (absent : position ∉ slots) :
    (addAt slots amount index).isOne position = index.isOne position :=
  is_one_spell_of_not_mem index _ absent

theorem number_at_add_at (amount : Int) (index : BasisState) :
    ((addAt slots amount index).numberAt slots : Int) =
      (index.numberAt slots + amount) % (2 ^ slots.length : Nat) := by
  have positive : (0 : Int) < (2 ^ slots.length : Nat) := by
    exact_mod_cast Nat.two_pow_pos slots.length
  have nonneg := Int.emod_nonneg (index.numberAt slots + amount) (ne_of_gt positive)
  have below := Int.emod_lt_of_pos (index.numberAt slots + amount) positive
  rw [addAt, number_at_spell distinct inside, Nat.mod_eq_of_lt (by omega),
    Int.toNat_of_nonneg nonneg]

omit distinct inside in
theorem add_at_congr {first second : Int}
    (same : first % (2 ^ slots.length : Nat) = second % (2 ^ slots.length : Nat))
    (index : BasisState) : addAt slots first index = addAt slots second index := by
  rw [addAt, addAt, Int.add_emod, same, ← Int.add_emod]

theorem add_at_add_at (first second : Int) (index : BasisState) :
    addAt slots second (addAt slots first index) = addAt slots (first + second) index := by
  apply ext_number_at
  · intro position _ absent
    rw [is_one_add_at_of_not_mem _ _ absent, is_one_add_at_of_not_mem _ _ absent,
      is_one_add_at_of_not_mem _ _ absent]
  · have numbers : ((addAt slots second (addAt slots first index)).numberAt slots : Int) =
        (addAt slots (first + second) index).numberAt slots := by
      rw [number_at_add_at distinct inside, number_at_add_at distinct inside,
        number_at_add_at distinct inside, Int.emod_add_emod, add_assoc]
    exact_mod_cast numbers

theorem add_at_neg (amount : Int) (index : BasisState) :
    addAt slots (-amount) (addAt slots amount index) = index := by
  rw [add_at_add_at distinct inside, add_neg_cancel]
  refine ext_number_at (fun position _ absent => is_one_add_at_of_not_mem 0 index absent) ?_
  · have numbers : ((addAt slots 0 index).numberAt slots : Int) = index.numberAt slots := by
      rw [number_at_add_at distinct inside, add_zero]
      apply Int.emod_eq_of_lt (by omega)
      exact_mod_cast number_at_lt index slots
    exact_mod_cast numbers

/-! ### Moved and restricted registers -/

omit distinct inside in
theorem lt_width_of_rearranges {sigma : Equiv.Perm Nat} (rearranges : Rearranges sigma)
    {position : Nat} (inside : position < width) : sigma position < width := by
  by_contra outside
  have stays := rearranges (sigma position) (Nat.le_of_not_lt outside)
  rw [sigma.injective stays] at outside
  exact outside inside

omit distinct inside in
theorem number_at_permute {sigma : Equiv.Perm Nat} (rearranges : Rearranges sigma)
    (index : BasisState) (slots : List Nat) :
    (index.permute sigma).numberAt (slots.map sigma) = index.numberAt slots := by
  rw [numberAt, numberAt, List.foldl_map]
  simp only [is_one_permute_apply rearranges]

omit distinct inside in
theorem number_at_restrict (index : BasisState) {members : List Nat} (within : slots ⊆ members) :
    (index.restrict members).numberAt slots = index.numberAt slots := by
  apply number_at_congr
  intro slot member
  rw [is_one_restrict, decide_eq_true (within member), Bool.and_true]

theorem permute_add_at {sigma : Equiv.Perm Nat} (rearranges : Rearranges sigma) (amount : Int)
    (index : BasisState) :
    (addAt slots amount index).permute sigma =
      addAt (slots.map sigma) amount (index.permute sigma) := by
  have moved : ∀ slot ∈ slots.map sigma, slot < width := by
    intro slot member
    obtain ⟨source, listed, same⟩ := List.mem_map.1 member
    rw [← same]
    exact lt_width_of_rearranges rearranges (inside source listed)
  apply ext_number_at
  · intro position _ absent
    have before : sigma.symm position ∉ slots := by
      intro member
      apply absent
      rw [← sigma.apply_symm_apply position]
      exact List.mem_map_of_mem member
    rw [is_one_add_at_of_not_mem _ _ absent, is_one_permute rearranges, is_one_permute rearranges,
      is_one_add_at_of_not_mem _ _ before]
  · have numbers : (((addAt slots amount index).permute sigma).numberAt (slots.map sigma) : Int) =
        (addAt (slots.map sigma) amount (index.permute sigma)).numberAt (slots.map sigma) := by
      rw [number_at_permute rearranges, number_at_add_at distinct inside,
        number_at_add_at (distinct.map sigma.injective) moved, number_at_permute rearranges,
        List.length_map]
    exact_mod_cast numbers

theorem restrict_add_at {members : List Nat} (within : slots ⊆ members) (amount : Int)
    (index : BasisState) :
    (addAt slots amount index).restrict members = addAt slots amount (index.restrict members) := by
  apply ext_number_at
  · intro position _ absent
    rw [is_one_add_at_of_not_mem _ _ absent, is_one_restrict, is_one_restrict,
      is_one_add_at_of_not_mem _ _ absent]
  · have numbers : (((addAt slots amount index).restrict members).numberAt slots : Int) =
        (addAt slots amount (index.restrict members)).numberAt slots := by
      rw [number_at_restrict _ within, number_at_add_at distinct inside,
        number_at_add_at distinct inside, number_at_restrict _ within]
    exact_mod_cast numbers

omit distinct inside in
theorem restrict_add_at_of_disjoint {members : List Nat} (apart : List.Disjoint slots members)
    (amount : Int) (index : BasisState) :
    (addAt slots amount index).restrict members = index.restrict members := by
  apply ext_is_one
  intro position _
  rw [is_one_restrict, is_one_restrict]
  by_cases member : position ∈ members
  · rw [is_one_add_at_of_not_mem _ _ fun slot => apart slot member]
  · rw [decide_eq_false member, Bool.and_false, Bool.and_false]

end Slots

/-! ### Controlled addition -/

/-- The register at `slots` is added to where all controls are 1. -/
def addWhere (controls slots : List Nat) (amount : Int) (index : BasisState) : BasisState :=
  if index.allOnes controls then addAt slots amount index else index

theorem all_ones_congr {left right : BasisState} {positions : List Nat}
    (same : ∀ position ∈ positions, left.isOne position = right.isOne position) :
    left.allOnes positions = right.allOnes positions := by
  rw [allOnes, allOnes, Bool.eq_iff_iff, List.all_eq_true, List.all_eq_true]
  exact forall₂_congr fun position member => by rw [same position member]

theorem all_ones_of_subset {index : BasisState} {fewer more : List Nat} (within : fewer ⊆ more)
    (ones : index.allOnes more = true) : index.allOnes fewer = true := by
  rw [allOnes, List.all_eq_true] at ones ⊢
  exact fun position member => ones position (within member)

theorem zero_of_not_all_ones {index : BasisState} {positions : List Nat}
    (notAll : ¬index.allOnes positions = true) :
    ∃ position ∈ positions, index.isOne position = false := by
  rw [Bool.not_eq_true, allOnes, List.all_eq_false] at notAll
  obtain ⟨position, member, notOne⟩ := notAll
  exact ⟨position, member, Bool.eq_false_iff.2 notOne⟩

theorem not_mem_of_all_ones {index : BasisState} {positions : List Nat}
    (ones : index.allOnes positions = true) {position : Nat}
    (zero : index.isOne position = false) : position ∉ positions := by
  intro member
  rw [allOnes, List.all_eq_true] at ones
  exact Bool.false_ne_true (zero.symm.trans (ones position member))

section Controls

variable {slots controls : List Nat} (distinct : slots.Nodup)
  (inside : ∀ slot ∈ slots, slot < width) (apart : List.Disjoint slots controls)

theorem is_one_add_where_of_not_mem (controls : List Nat) (amount : Int) (index : BasisState)
    {position : Nat} (absent : position ∉ slots) :
    (addWhere controls slots amount index).isOne position = index.isOne position := by
  rw [addWhere]
  split_ifs
  · exact is_one_add_at_of_not_mem amount index absent
  · rfl

include apart

theorem all_ones_add_at (amount : Int) (index : BasisState) :
    (addAt slots amount index).allOnes controls = index.allOnes controls :=
  all_ones_congr fun _ control =>
    is_one_add_at_of_not_mem amount index fun slot => apart slot control

include distinct inside

theorem add_where_neg (amount : Int) (index : BasisState) :
    addWhere controls slots (-amount) (addWhere controls slots amount index) = index := by
  by_cases ones : index.allOnes controls = true
  · rw [addWhere, addWhere, if_pos ones, all_ones_add_at apart, if_pos ones,
      add_at_neg distinct inside]
  · rw [addWhere, addWhere, if_neg ones, if_neg ones]

omit apart in
theorem restrict_add_where {members : List Nat} (slotsWithin : slots ⊆ members)
    (controlsWithin : controls ⊆ members) (amount : Int) (index : BasisState) :
    (addWhere controls slots amount index).restrict members =
      addWhere controls slots amount (index.restrict members) := by
  rw [addWhere, addWhere, all_ones_restrict index controlsWithin]
  split_ifs
  · exact restrict_add_at distinct inside slotsWithin amount index
  · rfl

omit distinct inside apart in
theorem restrict_add_where_of_disjoint {members : List Nat}
    (elsewhere : List.Disjoint slots members) (amount : Int) (index : BasisState) :
    (addWhere controls slots amount index).restrict members = index.restrict members := by
  rw [addWhere]
  split_ifs
  · exact restrict_add_at_of_disjoint elsewhere amount index
  · rfl

def addition (amount : Int) : Equiv.Perm BasisState where
  toFun := addWhere controls slots amount
  invFun := addWhere controls slots (-amount)
  left_inv := add_where_neg distinct inside apart amount
  right_inv index := by
    have back := add_where_neg distinct inside apart (-amount) index
    rw [neg_neg] at back
    exact back

end Controls

/-- The move adds `amount` to the number at the slots, modulo its range, where all controls are 1,
and changes nothing else. -/
structure Adds (move : BasisState → BasisState) (slots controls : List Nat) (amount : Int) :
    Prop where
  added : ∀ index, index.allOnes controls = true →
    ((move index).numberAt slots : Int) =
      (index.numberAt slots + amount) % (2 ^ slots.length : Nat)
  others : ∀ index position, position ∉ slots → (move index).isOne position = index.isOne position
  idle : ∀ index, index.allOnes controls = false → move index = index

theorem add_where_adds {slots : List Nat} (distinct : slots.Nodup)
    (inside : ∀ slot ∈ slots, slot < width) (controls : List Nat) (amount : Int) :
    Adds (addWhere controls slots amount) slots controls amount where
  added index ones := by rw [addWhere, if_pos ones, number_at_add_at distinct inside]
  others index _ absent := is_one_add_where_of_not_mem controls amount index absent
  idle index zero := by rw [addWhere, if_neg (by simp [zero])]

end BasisState

end SparseQuantum
