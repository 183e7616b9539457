import Mathlib
import SparseQuantum.Proofs.StoredAmplitudes

/-!
# Partitions refine one global state

Joining partitions and taking a new slot leave the product of all partitions as it is. A gate
changes one factor, but its matrix reads and flips nothing outside the members of that factor, so it
acts on the whole product as it acts on the factor. A control that is known has one value wherever
the product is not zero: dropping it, or skipping the gate, cannot be seen either.
-/

namespace SparseQuantum

set_option autoImplicit false

variable {R : Type} [ExactScalar R]

namespace Arena

/-- The product of all partitions is determined by its amplitudes, and these by the places. -/
structure Faithful (arena : Arena R) : Prop where
  well_formed : arena.WellFormed
  is_local : arena.Local
  zero_free : arena.ZeroFree

theorem faithful_inserts {arena grown : Arena R} {slot place : Nat} (faithful : arena.Faithful)
    (inserts : Inserts arena grown slot place) (wellFormed : grown.WellFormed) :
    grown.Faithful where
  well_formed := wellFormed
  is_local := inserts_local faithful.is_local inserts
  zero_free := zero_free_inserts faithful.zero_free inserts

theorem faithful_joins {arena after : Arena R} {survivor absorbed : Nat}
    {target taken : Partition R} (faithful : arena.Faithful)
    (joins : Joins arena after survivor absorbed target taken) : after.Faithful where
  well_formed := joins_well_formed faithful.well_formed joins
  is_local := joins_local faithful.is_local joins
  zero_free := zero_free_joins faithful.zero_free joins

theorem faithful_merges {survivor : Nat} {arena merged : Arena R}
    (merges : Merges survivor arena merged) (faithful : arena.Faithful) : merged.Faithful where
  well_formed := merges_well_formed merges faithful.well_formed
  is_local := merges_local merges faithful.is_local
  zero_free := zero_free_merges merges faithful.zero_free

/-- Arenas that own the same slots and give the same amplitudes have the same product. -/
theorem whole_eq_of_amplitudes {left right : Arena R} (leftFaithful : left.Faithful)
    (rightFaithful : right.Faithful) (owns : ∀ slot, left.Owns slot ↔ right.Owns slot)
    (same : ∀ index, left.amplitude index = right.amplitude index) : left.whole = right.whole := by
  apply SparseState.ext_value (zero_free_whole leftFaithful.zero_free)
    (zero_free_whole rightFaithful.zero_free)
  intro index
  have covers : left.Covers index ↔ right.Covers index :=
    forall₂_congr fun position _ => owns position
  by_cases leftCovers : left.Covers index
  · rw [value_of_covers leftFaithful.well_formed leftFaithful.is_local leftCovers,
      value_of_covers rightFaithful.well_formed rightFaithful.is_local (covers.1 leftCovers), same]
  · rw [value_of_not_covers leftFaithful.well_formed leftFaithful.is_local leftCovers,
      value_of_not_covers rightFaithful.well_formed rightFaithful.is_local
        fun rightCovers => leftCovers (covers.2 rightCovers)]

/-! ### Joined partitions -/

/-- A product does not change when the factor at one place is moved into the one at another. -/
theorem prod_gathered {places : Finset Nat} {before after : Nat → Amplitude R}
    {survivor absorbed : Nat} (different : survivor ≠ absorbed) (survivorIn : survivor ∈ places)
    (absorbedIn : absorbed ∈ places)
    (gathered : after survivor = before survivor * before absorbed) (cleared : after absorbed = 1)
    (others : ∀ place, place ≠ survivor → place ≠ absorbed → after place = before place) :
    ∏ place ∈ places, after place = ∏ place ∈ places, before place := by
  have absorbedLeft : absorbed ∈ places.erase survivor :=
    Finset.mem_erase.2 ⟨different.symm, absorbedIn⟩
  have rest : ∏ place ∈ (places.erase survivor).erase absorbed, after place =
      ∏ place ∈ (places.erase survivor).erase absorbed, before place := by
    apply Finset.prod_congr rfl
    intro place member
    obtain ⟨notAbsorbed, still⟩ := Finset.mem_erase.1 member
    exact others place (Finset.mem_erase.1 still).1 notAbsorbed
  rw [← Finset.mul_prod_erase places after survivorIn,
    ← Finset.mul_prod_erase places before survivorIn,
    ← Finset.mul_prod_erase _ after absorbedLeft, ← Finset.mul_prod_erase _ before absorbedLeft,
    gathered, cleared, one_mul, mul_assoc, rest]

theorem joins_amplitude {arena after : Arena R} {survivor absorbed : Nat}
    {target taken : Partition R} (faithful : arena.Faithful)
    (joins : Joins arena after survivor absorbed target taken) (index : BasisState) :
    after.amplitude index = arena.amplitude index := by
  let bound := max arena.partitions.size after.partitions.size
  have below {place : Nat} {partition : Partition R}
      (found : arena.partitions[place]? = some partition) : place ∈ Finset.range bound :=
    Finset.mem_range.2 (lt_of_lt_of_le (Array.getElem?_eq_some_iff.1 found).1 (le_max_left _ _))
  have joined := joins.partitions survivor
  rw [if_pos rfl] at joined
  have cleared := joins.partitions absorbed
  rw [if_neg joins.different.symm, if_pos rfl] at cleared
  have targetLocal := faithful.is_local survivor target joins.target_found
  have takenLocal := faithful.is_local absorbed taken joins.taken_found
  have apart := faithful.well_formed.members_disjoint joins.target_found joins.taken_found
    joins.different
  have gathered : after.factor index survivor =
      arena.factor index survivor * arena.factor index absorbed := by
    rw [factor_of_found joined, factor_of_found joins.target_found,
      factor_of_found joins.taken_found, both,
      SparseState.value_tensor targetLocal takenLocal apart (BasisState.inside_restrict _ _),
      BasisState.restrict_restrict (List.subset_append_left _ _),
      BasisState.restrict_restrict (List.subset_append_right _ _)]
  rw [← prod_factor_eq (le_max_right _ _ : _ ≤ bound),
    ← prod_factor_eq (le_max_left _ _ : _ ≤ bound)]
  apply prod_gathered joins.different (below joins.target_found) (below joins.taken_found) gathered
    (factor_of_cleared (Or.inl cleared) index)
  intro place notSurvivor notAbsorbed
  rw [factor, factor, joins.partitions, if_neg notSurvivor, if_neg notAbsorbed]

/-- Merging cannot be seen in the product. -/
theorem merges_whole {survivor : Nat} {arena merged : Arena R}
    (merges : Merges survivor arena merged) (faithful : arena.Faithful) :
    merged.whole = arena.whole := by
  induction merges with
  | done => rfl
  | join wellFormed joins _ induction =>
      rw [induction (faithful_joins faithful joins)]
      exact whole_eq_of_amplitudes (faithful_joins faithful joins) faithful
        (joins_owns_iff wellFormed joins) (joins_amplitude faithful joins)

/-! ### New slots -/

theorem factor_of_singleton {arena : Arena R} {slot place : Nat}
    (found : arena.partitions[place]? = some (.singleton slot)) (index : BasisState) :
    arena.factor index place = if index.isOne slot then 0 else 1 := by
  rw [factor_of_found found, Partition.singleton, SparseState.value_ground]
  by_cases one : index.isOne slot = true
  · have different : index.restrict [slot] ≠ .zero := by
      intro same
      have bit := BasisState.is_one_restrict index [slot] slot
      rw [same, BasisState.is_one_zero, one] at bit
      simp at bit
    rw [if_neg different, if_pos one]
  · have clear : index.restrict [slot] = .zero := by
      apply BasisState.ext_is_one
      intro position _
      rw [BasisState.is_one_restrict, BasisState.is_one_zero]
      by_cases here : position = slot
      · rw [here, Bool.eq_false_iff.2 one, Bool.false_and]
      · rw [decide_eq_false (fun member => here (List.mem_singleton.1 member)), Bool.and_false]
    rw [if_pos clear, if_neg one]

/-- A new slot is 0, which cannot be seen in the product. -/
theorem inserts_whole {arena grown : Arena R} {slot place : Nat} (faithful : arena.Faithful)
    (inserts : Inserts arena grown slot place) (wellFormed : grown.WellFormed)
    (unowned : ¬arena.Owns slot) : grown.whole = arena.whole := by
  have grownFaithful := faithful_inserts faithful inserts wellFormed
  have inserted := inserts.partitions place
  rw [if_pos rfl] at inserted
  apply SparseState.ext_value (zero_free_whole grownFaithful.zero_free)
    (zero_free_whole faithful.zero_free)
  intro index
  by_cases one : index.isOne slot = true
  · have outside : ¬arena.Covers index := fun covers => unowned (covers slot one)
    rw [value_of_not_covers faithful.well_formed faithful.is_local outside]
    by_cases covers : grown.Covers index
    · have here : place ∈ Finset.range grown.partitions.size :=
        Finset.mem_range.2 (Array.getElem?_eq_some_iff.1 inserted).1
      rw [value_of_covers wellFormed grownFaithful.is_local covers, amplitude]
      apply Finset.prod_eq_zero here
      rw [factor_of_singleton inserted, if_pos one]
    · exact value_of_not_covers wellFormed grownFaithful.is_local covers
  · have covers : grown.Covers index ↔ arena.Covers index := by
      refine forall₂_congr fun position isOne => ?_
      have different : position ≠ slot := fun same => one (by rw [← same]; exact isOne)
      rw [inserts_owns_iff inserts, or_iff_right different]
    by_cases known : arena.Covers index
    · let bound := max arena.partitions.size grown.partitions.size
      rw [value_of_covers wellFormed grownFaithful.is_local (covers.2 known),
        value_of_covers faithful.well_formed faithful.is_local known,
        ← prod_factor_eq (le_max_right _ _ : _ ≤ bound),
        ← prod_factor_eq (le_max_left _ _ : _ ≤ bound)]
      apply Finset.prod_congr rfl
      intro other _
      by_cases here : other = place
      · rw [here, factor_of_singleton inserted, if_neg one, factor_of_cleared inserts.before]
      · rw [factor, factor, inserts.partitions, if_neg here]
    · rw [value_of_not_covers wellFormed grownFaithful.is_local fun grownCovers =>
        known (covers.1 grownCovers),
        value_of_not_covers faithful.well_formed faithful.is_local known]

/-! ### Gates on one factor -/

section Gate

variable {arena : Arena R} (faithful : arena.Faithful) {place : Nat} {partition : Partition R}
  (found : arena.partitions[place]? = some partition) {target : Nat} {controls : List Nat}
  (member : target ∈ partition.members) (within : controls ⊆ partition.members)
  {matrix : Matrix2 R} {state : SparseState R}
  (acts : ∀ index, state.value index = matrix.act target controls partition.state.value index)

include faithful found member

/-- The other factors do not see the target. -/
theorem factor_flip {other : Nat} (different : other ≠ place) (index : BasisState) :
    arena.factor (index.flip target) other = arena.factor index other := by
  rw [factor, factor]
  cases there : arena.partitions[other]? with
  | none => rfl
  | some elsewhere =>
      have absent : target ∉ elsewhere.members := fun source =>
        faithful.well_formed.members_disjoint there found different source member
      exact congrArg elsewhere.state.value (BasisState.restrict_flip_of_not_mem index absent)

include within acts

theorem amplitude_with_state (index : BasisState) :
    (arena.withState place state).amplitude index =
      matrix.act target controls arena.amplitude index := by
  let places := Finset.range arena.partitions.size
  let others := fun index => ∏ other ∈ places.erase place, arena.factor index other
  have here : place ∈ places := Finset.mem_range.2 (Array.getElem?_eq_some_iff.1 found).1
  have split (index : BasisState) : arena.amplitude index =
      partition.state.value (index.restrict partition.members) * others index := by
    rw [amplitude, ← Finset.mul_prod_erase places _ here, factor_of_found found]
  have othersFlip : others (index.flip target) = others index := by
    apply Finset.prod_congr rfl
    intro other source
    exact factor_flip faithful found member (Finset.mem_erase.1 source).1 index
  have changed : (arena.withState place state).amplitude index =
      state.value (index.restrict partition.members) * others index := by
    have size : (arena.withState place state).partitions.size = arena.partitions.size :=
      Array.size_modify
    have standing : (arena.withState place state).partitions[place]? =
        some { partition with state := state } := by
      rw [partition_with_state, if_pos rfl, found]
      rfl
    have rest : ∏ other ∈ places.erase place, (arena.withState place state).factor index other =
        others index := by
      apply Finset.prod_congr rfl
      intro other source
      rw [factor, factor, partition_with_state, if_neg (Finset.mem_erase.1 source).1.symm]
    rw [amplitude, size, ← Finset.mul_prod_erase places _ here, factor_of_found standing, rest]
  have sameStays : SparseState.stays matrix target controls (index.restrict partition.members) =
      SparseState.stays matrix target controls index := by
    rw [SparseState.stays, SparseState.stays, BasisState.all_ones_restrict index within,
      BasisState.is_one_restrict, decide_eq_true member, Bool.and_true]
  have sameArrives : SparseState.arrives matrix target controls (index.restrict partition.members) =
      SparseState.arrives matrix target controls index := by
    rw [SparseState.arrives, SparseState.arrives, BasisState.all_ones_restrict index within,
      BasisState.is_one_restrict, decide_eq_true member, Bool.and_true]
  rw [changed, acts, SparseState.act_eq, SparseState.act_eq, split index, split (index.flip target),
    othersFlip, sameStays, sameArrives, BasisState.restrict_flip_of_mem index member, add_mul,
    mul_assoc, mul_assoc]

/-- A gate on one factor acts on the whole product. -/
theorem value_whole_with_state (used : place ∉ arena.vacant)
    (inside : ∀ index, state.Stores index → index.Inside partition.members) (index : BasisState) :
    (arena.withState place state).whole.value index =
      matrix.act target controls arena.whole.value index := by
  have wellFormed := with_state_well_formed faithful.well_formed used state
  have isLocal := with_state_local faithful.is_local found inside
  have owned : arena.Owns target := ⟨place, faithful.well_formed.owner_of_member found member⟩
  have coversFlip : arena.Covers (index.flip target) ↔ arena.Covers index := by
    refine forall_congr' fun position => ?_
    by_cases here : target = position
    · rw [← here]
      exact ⟨fun _ _ => owned, fun _ _ => owned⟩
    · rw [BasisState.is_one_flip_of_ne index here]
  by_cases covers : arena.Covers index
  · rw [value_of_covers wellFormed isLocal covers,
      amplitude_with_state faithful found member within acts, SparseState.act_eq,
      SparseState.act_eq, value_of_covers faithful.well_formed faithful.is_local covers,
      value_of_covers faithful.well_formed faithful.is_local (coversFlip.2 covers)]
  · rw [value_of_not_covers wellFormed isLocal covers, SparseState.act_eq,
      value_of_not_covers faithful.well_formed faithful.is_local covers,
      value_of_not_covers faithful.well_formed faithful.is_local
        fun flipped => covers (coversFlip.1 flipped),
      mul_zero, mul_zero, add_zero]

end Gate

/-! ### Known slots -/

theorem known_of_value {arena : Arena R} (faithful : arena.Faithful) {slot : Nat} {value : Bool}
    (known : arena.known? slot = some value) {index : BasisState}
    (different : arena.whole.value index ≠ 0) : index.isOne slot = value := by
  obtain ⟨place, partition, only, amplitude, owner, found, entries, bit⟩ :=
    (known_eq_some_iff arena slot value).1 known
  have member := faithful.well_formed.member_of_owner owner found
  have covers : arena.Covers index := by
    by_contra outside
    exact different (value_of_not_covers faithful.well_formed faithful.is_local outside)
  rw [value_of_covers faithful.well_formed faithful.is_local covers, Arena.amplitude,
    Finset.prod_ne_zero_iff] at different
  have factor := different place
    (Finset.mem_range.2 (Array.getElem?_eq_some_iff.1 found).1)
  rw [factor_of_found found] at factor
  obtain ⟨stored, read⟩ := SparseState.stores_of_value factor
  have listed := (SparseState.mem_entries_iff _ _ _).2 read
  rw [entries, List.mem_singleton, Prod.mk.injEq] at listed
  rw [← bit, ← listed.1, BasisState.is_one_restrict, decide_eq_true member, Bool.and_true]

end Arena

/-! ### Controls that can be dropped -/

namespace Matrix2

variable (matrix : Matrix2 R) {target : Nat} {amplitude : BasisState → Amplitude R}

/-- Controls only count where there is amplitude. -/
theorem act_eq_of_controls {first second : List Nat} (firstAbsent : target ∉ first)
    (secondAbsent : target ∉ second)
    (same : ∀ index, amplitude index ≠ 0 → index.allOnes first = index.allOnes second)
    (index : BasisState) :
    matrix.act target first amplitude index = matrix.act target second amplitude index := by
  have agree (ones : index.allOnes first = index.allOnes second) :
      matrix.act target first amplitude index = matrix.act target second amplitude index := by
    rw [act, act, ones]
  by_cases here : amplitude index = 0
  · by_cases there : amplitude (index.flip target) = 0
    · rw [SparseState.act_eq, SparseState.act_eq, here, there, mul_zero, mul_zero, mul_zero,
        mul_zero]
    · have ones := same (index.flip target) there
      rw [BasisState.all_ones_flip index firstAbsent,
        BasisState.all_ones_flip index secondAbsent] at ones
      exact agree ones
  · exact agree (same index here)

theorem act_idle {controls : List Nat} (absent : target ∉ controls)
    (never : ∀ index, amplitude index ≠ 0 → index.allOnes controls = false) (index : BasisState) :
    matrix.act target controls amplitude index = amplitude index := by
  cases ones : index.allOnes controls with
  | false =>
      rw [act, ones]
      rfl
  | true =>
      have here : amplitude index = 0 := by
        by_contra different
        have clear := never index different
        rw [ones] at clear
        exact absurd clear (by decide)
      have there : amplitude (index.flip target) = 0 := by
        by_contra different
        have clear := never (index.flip target) different
        rw [BasisState.all_ones_flip index absent, ones] at clear
        exact absurd clear (by decide)
      rw [SparseState.act_eq, here, there, mul_zero, mul_zero, add_zero]

end Matrix2

namespace Simulator

theorem reachable_faithful {simulator : Simulator R} (reached : Reachable KeepsOthers simulator) :
    simulator.arena.Faithful where
  well_formed := (reachable_well_formed reached).arena
  is_local := reachable_local reached
  zero_free := reachable_zero_free reached

section Controls

variable {before : Simulator R} (faithful : before.arena.Faithful) {controls : List Nat}

include faithful

theorem all_ones_of_live {live : List Nat} (matters : Live before controls live)
    {index : BasisState} (different : before.globalState.value index ≠ 0) :
    index.allOnes live = index.allOnes controls := by
  rw [BasisState.allOnes, BasisState.allOnes, Bool.eq_iff_iff, List.all_eq_true, List.all_eq_true]
  constructor
  · intro ones control member
    by_cases known : before.arena.known? control = some true
    · exact Arena.known_of_value faithful known different
    · apply ones control
      rw [matters.kept, List.mem_filter]
      exact ⟨member, decide_eq_true known⟩
  · exact fun ones control member => ones control (matters.subset member)

theorem all_ones_of_decided
    (decided : ∃ control ∈ controls, before.arena.known? control = some false) {index : BasisState}
    (different : before.globalState.value index ≠ 0) : index.allOnes controls = false := by
  rcases decided with ⟨control, member, known⟩
  have clear := Arena.known_of_value faithful known different
  rw [Bool.eq_false_iff, BasisState.allOnes, ne_eq, List.all_eq_true]
  intro ones
  rw [ones control member] at clear
  exact absurd clear (by decide)

end Controls

/-- Nothing but zeros is neglected when the gate is applied to the partition that the operands are
gathered in, under the controls that matter. -/
def PrunesOnlyZeros (before : Simulator R) (gate : Gate R) (target : Nat) (controls : List Nat) :
    Prop :=
  ∀ (live : List Nat) (place : Nat) (merged : Arena R) (partition : Partition R),
    Live before controls live → before.arena.merge target live = .ok (place, merged) →
    merged.partitions[place]? = some partition →
    partition.state.PrunesOnlyZeros gate target live

section Gate

variable {before : Simulator R} (wellFormed : before.WellFormed) (faithful : before.arena.Faithful)
  {gate : Gate R} {target : QubitId} {controls : List QubitId} {slot : Nat}
  {controlSlots : List Nat} (found : before.Operands (target :: controls) (slot :: controlSlots))

include wellFormed found

section Values

include faithful

/-- A gate that is skipped would have done nothing. -/
theorem value_skipped
    (decided : ∃ control ∈ controlSlots, before.arena.known? control = some false)
    (index : BasisState) :
    before.globalState.value index =
      gate.matrix.act slot controlSlots before.globalState.value index := by
  have absent := (List.nodup_cons.1 (found.distinct wellFormed)).1
  rw [Matrix2.act_idle gate.matrix absent fun other different =>
    all_ones_of_decided faithful decided different]

/-- Under the controls that matter the gate acts as it would under all of them. -/
theorem value_applied {live : List Nat} {place : Nat} {merged : Arena R}
    {partition : Partition R} (matters : Live before controlSlots live)
    (gathers : Arena.Gathers before.arena merged slot live place partition)
    (prunes : partition.state.PrunesOnlyZeros gate slot live) (index : BasisState) :
    (merged.withState place (partition.state.applyGate gate slot live)).whole.value index =
      gate.matrix.act slot controlSlots before.globalState.value index := by
  have absent := (List.nodup_cons.1 (found.distinct wellFormed)).1
  have absentLive : slot ∉ live := fun member => absent (matters.subset member)
  have inside := wellFormed.allocated_lt_width (found.allocated List.mem_cons_self)
  have mergedFaithful := Arena.faithful_merges gathers.merges faithful
  have partitionInside := mergedFaithful.is_local place partition gathers.found
  have member := gathers.members slot List.mem_cons_self
  have within : live ⊆ partition.members := fun control source =>
    gathers.members control (List.mem_cons_of_mem _ source)
  have sameWhole : merged.whole = before.globalState := Arena.merges_whole gathers.merges faithful
  calc
    (merged.withState place (partition.state.applyGate gate slot live)).whole.value index =
        gate.matrix.act slot live merged.whole.value index :=
      Arena.value_whole_with_state mergedFaithful gathers.found member within
        (SparseState.value_apply_gate partition.state gate inside absentLive prunes) gathers.used
        (SparseState.inside_apply_gate partitionInside member live) index
    _ = gate.matrix.act slot live before.globalState.value index := by rw [sameWhole]
    _ = gate.matrix.act slot controlSlots before.globalState.value index :=
      Matrix2.act_eq_of_controls gate.matrix absentLive absent
        (fun other different => all_ones_of_live faithful matters different) index

end Values

variable (prunesWhole : before.globalState.PrunesOnlyZeros gate slot controlSlots)

include prunesWhole

theorem value_gate_on_whole (index : BasisState) :
    (before.globalState.applyGate gate slot controlSlots).value index =
      gate.matrix.act slot controlSlots before.globalState.value index := by
  have distinct := found.distinct wellFormed
  exact SparseState.value_apply_gate before.globalState gate
    (wellFormed.allocated_lt_width (found.allocated List.mem_cons_self))
    (List.nodup_cons.1 distinct).1 prunesWhole index

include faithful

theorem skipped_refines
    (decided : ∃ control ∈ controlSlots, before.arena.known? control = some false) :
    before.globalState = before.globalState.applyGate gate slot controlSlots := by
  have wholeFree : before.globalState.ZeroFree := Arena.zero_free_whole faithful.zero_free
  apply SparseState.ext_value wholeFree (SparseState.zero_free_apply_gate wholeFree gate _ _)
  intro index
  rw [value_gate_on_whole wellFormed found prunesWhole index,
    ← value_skipped wellFormed faithful found decided]

theorem applied_refines {live : List Nat} {place : Nat} {merged : Arena R}
    {partition : Partition R} (matters : Live before controlSlots live)
    (gathers : Arena.Gathers before.arena merged slot live place partition)
    (prunes : partition.state.PrunesOnlyZeros gate slot live) :
    (merged.withState place (partition.state.applyGate gate slot live)).whole =
      before.globalState.applyGate gate slot controlSlots := by
  have mergedFaithful := Arena.faithful_merges gathers.merges faithful
  have partitionFree := mergedFaithful.zero_free place partition gathers.found
  apply SparseState.ext_value
    (Arena.zero_free_whole (Arena.zero_free_with_state mergedFaithful.zero_free place
      (SparseState.zero_free_apply_gate partitionFree gate slot live)))
    (SparseState.zero_free_apply_gate (Arena.zero_free_whole faithful.zero_free) gate _ _)
  intro index
  exact (value_applied wellFormed faithful found matters gathers prunes index).trans
    (value_gate_on_whole wellFormed found prunesWhole index).symm

end Gate

/-! ### Whole operations -/

section Unseen

variable {before : Simulator R} (wellFormed : before.WellFormed) (faithful : before.arena.Faithful)

include wellFormed faithful

theorem alloc_unseen (qubit : QubitId) (dirty : Bool) :
    (leaves (alloc qubit dirty before)).globalState = before.globalState := by
  have outcome := alloc_outcome wellFormed qubit dirty
  generalize alloc qubit dirty before = result at outcome ⊢
  cases outcome with
  | known => rfl
  | unparked => rfl
  | exhausted => rfl
  | fresh _ _ takes inserts arena =>
      exact Arena.inserts_whole faithful inserts arena (takes.not_owned wellFormed)

omit faithful in
theorem dirty_free_unseen (qubit : QubitId) :
    (leaves (free qubit true before)).globalState = before.globalState := by
  have outcome := free_outcome wellFormed qubit true
  generalize free qubit true before = result at outcome ⊢
  cases outcome with
  | refused => rfl
  | parked => rfl
  | cleaned _ isClean => exact absurd isClean (by decide)

theorem dump_unseen (qubits : List QubitId) :
    (leaves (takeDump qubits before)).globalState = before.globalState := by
  have outcome := dump_outcome wellFormed qubits
  generalize takeDump qubits before = result at outcome ⊢
  cases outcome with
  | refused => rfl
  | empty => rfl
  | recorded _ gathers => exact Arena.merges_whole gathers.merges faithful

theorem failure_unseen {operation : Operation R} (fails : Fails (operation.perform before)) :
    (leaves (operation.perform before)).globalState = before.globalState := by
  cases operation with
  | alloc qubit dirty => exact alloc_unseen wellFormed faithful qubit dirty
  | free qubit dirty =>
      have outcome := free_outcome wellFormed qubit dirty
      rw [Operation.perform] at fails ⊢
      generalize free qubit dirty before = result at outcome fails ⊢
      cases outcome with
      | refused => rfl
      | parked => exact fails.elim
      | cleaned => exact fails.elim
  | gate gate target controls =>
      have outcome := gate_outcome wellFormed gate target controls
      rw [Operation.perform] at fails ⊢
      generalize applyGate gate target controls before = result at outcome fails ⊢
      cases outcome with
      | refused => rfl
      | skipped => rfl
      | applied => exact fails.elim
  | measure qubit =>
      have outcome := measure_outcome wellFormed qubit
      rw [Operation.perform, Operation.fails_discard] at fails
      rw [Operation.perform, Operation.leaves_discard]
      generalize measure qubit before = result at outcome fails ⊢
      cases outcome with
      | refused => rfl
      | measured => exact fails.elim
  | plugin plugin targets arguments inverse controls =>
      have outcome := plugin_outcome wellFormed plugin targets arguments inverse controls
      rw [Operation.perform, Operation.fails_discard] at fails
      rw [Operation.perform, Operation.leaves_discard]
      generalize applyPlugin plugin targets arguments inverse controls before = result
        at outcome fails ⊢
      cases outcome with
      | refused => rfl
      | skipped => rfl
      | idle => rfl
      | @ran _ _ _ _ _ _ _ _ call _ _ _ gathers _ _ =>
          rcases ran : plugin.run call with ⟨left, stop | ⟨⟩⟩
          · exact Arena.merges_whole gathers.merges faithful
          · rw [ran] at fails
            exact (show False from fails).elim
  | dump qubits =>
      rw [Operation.perform, Operation.leaves_discard]
      exact dump_unseen wellFormed faithful qubits
  | setRegister register value => rfl

end Unseen

/-- Partitions are not visible in the global state: allocating, parking, dumping and failing leave
it as it is, and a gate that succeeds acts on it under all of its controls, as long as only zeros
are neglected. -/
theorem partitions_refine {simulator : Simulator R} (reached : Reachable KeepsOthers simulator) :
    (∀ qubit dirty,
      (leaves (alloc qubit dirty simulator)).globalState = simulator.globalState) ∧
    (∀ qubit, (leaves (free qubit true simulator)).globalState = simulator.globalState) ∧
    (∀ qubits, (leaves (takeDump qubits simulator)).globalState = simulator.globalState) ∧
    (∀ operation : Operation R, Fails (operation.perform simulator) →
      (leaves (operation.perform simulator)).globalState = simulator.globalState) ∧
    (∀ (gate : Gate R) (target : QubitId) (controls : List QubitId) (after : Simulator R),
      applyGate gate target controls simulator = .ok () after →
      ∃ slot controlSlots,
        simulator.slotsOf [] (target :: controls) = .ok (slot :: controlSlots) ∧
        (simulator.PrunesOnlyZeros gate slot controlSlots →
          simulator.globalState.PrunesOnlyZeros gate slot controlSlots →
          after.globalState = simulator.globalState.applyGate gate slot controlSlots)) := by
  have wellFormed := reachable_well_formed reached
  have faithful := reachable_faithful reached
  refine ⟨alloc_unseen wellFormed faithful, dirty_free_unseen wellFormed,
    dump_unseen wellFormed faithful, fun _ => failure_unseen wellFormed faithful, ?_⟩
  intro gate target controls after answer
  have outcome := gate_outcome wellFormed gate target controls
  rw [answer] at outcome
  generalize result : EStateM.Result.ok () after = ended at outcome
  cases outcome with
  | refused => exact absurd result (by simp)
  | @skipped slot controlSlots found decided =>
      rw [EStateM.Result.ok.injEq] at result
      refine ⟨slot, controlSlots, (slots_of_operands _ _ _).2 found, ?_⟩
      intro _ prunesWhole
      rw [result.2]
      exact skipped_refines wellFormed faithful found prunesWhole decided
  | @applied slot place controlSlots live merged partition found matters gathers =>
      rw [EStateM.Result.ok.injEq] at result
      refine ⟨slot, controlSlots, (slots_of_operands _ _ _).2 found, ?_⟩
      intro prunes prunesWhole
      rw [result.2]
      exact applied_refines wellFormed faithful found prunesWhole matters gathers
        (prunes live place merged partition matters gathers.result gathers.found)

/-- Gates on allocated qubits succeed. -/
theorem gate_succeeds {before : Simulator R} (wellFormed : before.WellFormed) (gate : Gate R)
    {target : QubitId} {controls : List QubitId} {slots : List Nat}
    (found : before.Operands (target :: controls) slots) :
    ∃ after, applyGate gate target controls before = .ok () after := by
  have outcome := gate_outcome wellFormed gate target controls
  generalize applyGate gate target controls before = result at outcome ⊢
  cases outcome with
  | refused refused =>
      rw [(slots_of_operands before _ slots).2 found] at refused
      exact absurd refused (by simp)
  | skipped => exact ⟨before, rfl⟩
  | applied => exact ⟨_, rfl⟩

noncomputable def flipped : Simulator Real :=
  leaves ((Operation.gate .x ⟨0⟩ []).perform
    (leaves ((Operation.alloc ⟨1⟩ false).perform
      (leaves ((Operation.alloc ⟨0⟩ false).perform (ofSeed width 7))))))

theorem flipped_reachable : Reachable KeepsOthers flipped :=
  .step (.step (.step (.seeded (.started (fun _ => none) "plugins" "dumps" 7) 7) trivial) trivial)
    trivial

/-- The flipped qubit is known and dropped as a control, but the global state is that of the gate
under the control. -/
theorem flipped_control_unseen : flipped.arena.known? 0 = some true ∧
    ∃ after, applyGate .x ⟨1⟩ [⟨0⟩] flipped = .ok () after ∧
      after.globalState = flipped.globalState.applyGate .x 1 [0] := by
  have found : flipped.Operands [⟨1⟩, ⟨0⟩] [1, 0] := ⟨by decide, by decide +kernel⟩
  obtain ⟨after, answer⟩ := gate_succeeds (reachable_well_formed flipped_reachable) .x found
  obtain ⟨slot, controlSlots, read, refines⟩ :=
    (partitions_refine flipped_reachable).2.2.2.2 .x ⟨1⟩ [⟨0⟩] after answer
  rw [(slots_of_operands flipped _ _).2 found, Except.ok.injEq, List.cons.injEq] at read
  rw [← read.1, ← read.2] at refines
  have prunes (state : SparseState Real) (target : Nat) (controls : List Nat) :
      state.PrunesOnlyZeros .x target controls :=
    fun _ mixes => absurd mixes (by simp [Gate.mixing?])
  exact ⟨by decide +kernel, after, answer,
    refines (fun live _ _ partition _ _ _ => prunes partition.state 1 live) (prunes _ 1 [0])⟩

end Simulator

end SparseQuantum
