import Mathlib
import SparseQuantum.Proofs.ControlledMatrices
import SparseQuantum.Proofs.ProductWeights
import SparseQuantum.Proofs.ProjectiveMeasurement
import SparseQuantum.Proofs.Refinement

/-!
# Measurements are local to a partition

Measuring a slot in its partition does what measuring it in the product of all partitions would: the
outcomes are as probable, so the same one is chosen and a draw is consumed in the same cases, and
collapsing the one factor collapses the product. A slot that is freed is reset there and leaves;
when it was the last one of its partition, its state goes too, which is a number of magnitude 1.
-/

namespace SparseQuantum

set_option autoImplicit false

variable {R : Type} [ExactScalar R]

theorem Amplitude.scale_down_mul (value other : Amplitude R) (divisor : R) :
    value.scaleDown divisor * other = (value * other).scaleDown divisor := by
  apply Amplitude.ext_parts
  · simp only [Amplitude.mul_re, Amplitude.scaleDown]
    ring
  · simp only [Amplitude.mul_im, Amplitude.scaleDown]
    ring

/-- Only 1 keeps an amplitude that is not zero. -/
theorem Amplitude.eq_one_of_mul {factor value : Amplitude R} (different : value ≠ 0)
    (kept : value = factor * value) : factor = 1 := by
  have vanishes : (factor - 1) * value = 0 := by rw [sub_mul, one_mul, ← kept, sub_self]
  have norms := (Amplitude.norm_sq_eq_zero_iff _).2 vanishes
  rw [Amplitude.norm_sq_mul, mul_eq_zero, Amplitude.norm_sq_eq_zero_iff,
    Amplitude.norm_sq_eq_zero_iff] at norms
  exact sub_eq_zero.1 (norms.resolve_right different)

theorem Amplitude.scale_down_zero (divisor : R) : (0 : Amplitude R).scaleDown divisor = 0 :=
  Amplitude.ext_parts (zero_div divisor) (zero_div divisor)

namespace Arena

open SparseState (moved)

/-! ### One factor and the others -/

/-- What the places other than the given one give a basis state. -/
def spectators (arena : Arena R) (place : Nat) (index : BasisState) : Amplitude R :=
  ∏ other ∈ (Finset.range arena.partitions.size).erase place, arena.factor index other

section Factor

variable {arena : Arena R} {place : Nat} {partition : Partition R}
  (stands : arena.partitions[place]? = some partition)

include stands

theorem amplitude_eq_spectators (index : BasisState) :
    arena.amplitude index =
      partition.state.value (index.restrict partition.members) * arena.spectators place index := by
  have here : place ∈ Finset.range arena.partitions.size :=
    Finset.mem_range.2 (Array.getElem?_eq_some_iff.1 stands).1
  rw [amplitude, ← Finset.mul_prod_erase _ _ here, factor_of_found stands, spectators]

theorem spectators_eq {other : Arena R}
    (alike : ∀ elsewhere, elsewhere ≠ place →
      other.partitions[elsewhere]? = arena.partitions[elsewhere]?)
    (standsThere : ∃ changed, other.partitions[place]? = some changed) (index : BasisState) :
    other.spectators place index = arena.spectators place index := by
  obtain ⟨changed, standsThere⟩ := standsThere
  have size : other.partitions.size = arena.partitions.size := by
    have inside (elsewhere : Nat) : elsewhere < other.partitions.size ↔
        elsewhere < arena.partitions.size := by
      by_cases here : elsewhere = place
      · rw [here]
        exact iff_of_true (Array.getElem?_eq_some_iff.1 standsThere).1
          (Array.getElem?_eq_some_iff.1 stands).1
      · rw [← not_le, ← not_le, ← Array.getElem?_eq_none_iff, ← Array.getElem?_eq_none_iff,
          alike elsewhere here]
    exact le_antisymm (not_lt.1 fun less => (lt_irrefl _ ((inside _).1 less)))
      (not_lt.1 fun less => (lt_irrefl _ ((inside _).2 less)))
  rw [spectators, spectators, size]
  apply Finset.prod_congr rfl
  intro elsewhere member
  rw [factor, factor, alike elsewhere (Finset.mem_erase.1 member).1]

theorem spectators_with_state (state : SparseState R) (index : BasisState) :
    (arena.withState place state).spectators place index = arena.spectators place index := by
  apply spectators_eq stands _ ⟨_, with_state_stands stands state⟩
  intro elsewhere different
  rw [partition_with_state, if_neg different.symm]

theorem spectators_moved (faithful : arena.Faithful) {slot : Nat}
    (member : slot ∈ partition.members) (outcome reset : Bool) (index : BasisState) :
    arena.spectators place (moved slot outcome reset index) = arena.spectators place index := by
  unfold moved
  split_ifs
  · apply Finset.prod_congr rfl
    intro other source
    exact factor_flip faithful stands member (Finset.mem_erase.1 source).1 index
  · rfl

end Factor

/-! ### Collapsing one factor -/

omit [ExactScalar R] in
theorem covers_moved {arena : Arena R} {slot : Nat} (owned : arena.Owns slot)
    (outcome reset : Bool) (index : BasisState) :
    arena.Covers (moved slot outcome reset index) ↔ arena.Covers index := by
  unfold moved
  split_ifs
  · refine forall_congr' fun position => ?_
    by_cases here : slot = position
    · rw [← here]
      exact ⟨fun _ _ => owned, fun _ _ => owned⟩
    · rw [BasisState.is_one_flip_of_ne index here]
  · exact Iff.rfl

theorem restrict_moved {slot : Nat} {members : List Nat} (member : slot ∈ members)
    (outcome reset : Bool) (index : BasisState) :
    (moved slot outcome reset index).restrict members =
      moved slot outcome reset (index.restrict members) := by
  unfold moved
  split_ifs
  · exact BasisState.restrict_flip_of_mem index member
  · rfl

section Collapse

variable {arena : Arena R} (faithful : arena.Faithful) {place : Nat} {partition : Partition R}
  (stands : arena.partitions[place]? = some partition) (used : place ∉ arena.vacant) {slot : Nat}
  (member : slot ∈ partition.members) (outcome reset : Bool)

include faithful stands used member

theorem faithful_collapse :
    (arena.withState place (partition.state.collapse slot outcome reset)).Faithful where
  well_formed := with_state_well_formed faithful.well_formed used _
  is_local := with_state_local faithful.is_local stands
    (SparseState.inside_collapse (faithful.is_local place partition stands) member outcome reset)
  zero_free := zero_free_with_state faithful.zero_free place
    (SparseState.zero_free_collapse (faithful.zero_free place partition stands) slot outcome reset)

/-- A partition collapses as the product does, when both give the outcome the same probability. -/
theorem whole_collapse (inside : slot < width)
    (same : arena.whole.branchProbability slot outcome =
      partition.state.branchProbability slot outcome) :
    (arena.withState place (partition.state.collapse slot outcome reset)).whole =
      arena.whole.collapse slot outcome reset := by
  have collapsed := faithful_collapse faithful stands used member outcome reset
  apply SparseState.ext_value (zero_free_whole collapsed.zero_free)
    (SparseState.zero_free_collapse (zero_free_whole faithful.zero_free) slot outcome reset)
  intro index
  have owned : arena.Owns slot := ⟨place, faithful.well_formed.owner_of_member stands member⟩
  rw [SparseState.value_collapse _ inside, same]
  by_cases covers : arena.Covers index
  · have bit : (index.restrict partition.members).isOne slot = index.isOne slot := by
      rw [BasisState.is_one_restrict, decide_eq_true member, Bool.and_true]
    rw [value_of_covers collapsed.well_formed collapsed.is_local covers,
      amplitude_eq_spectators (with_state_stands stands _), spectators_with_state stands,
      SparseState.value_collapse _ inside, bit, value_of_covers faithful.well_formed
        faithful.is_local ((covers_moved owned outcome reset index).2 covers),
      amplitude_eq_spectators stands, restrict_moved member,
      spectators_moved stands faithful member]
    split_ifs
    · exact Amplitude.scale_down_mul _ _ _
    · exact zero_mul _
  · rw [value_of_not_covers collapsed.well_formed collapsed.is_local covers,
      value_of_not_covers faithful.well_formed faithful.is_local
        (mt (covers_moved owned outcome reset index).1 covers), Amplitude.scale_down_zero, ite_self]

end Collapse

/-! ### Slots that leave -/

/-- The number that goes with a partition when its last slot leaves. -/
def leavingPhase (owned : Partition R) (slot : Nat) : Amplitude R :=
  if (others owned slot).isEmpty then owned.state.value .zero else 1

section Detach

variable {arena left : Arena R} {slot place : Nat} {owned : Partition R}
  (detaches : Detaches arena left slot place owned)
  (clear : ∀ index, owned.state.Stores index → index.isOne slot = false)

include detaches clear

theorem faithful_detaches (faithful : arena.Faithful) : left.Faithful where
  well_formed := detaches_well_formed faithful.well_formed detaches
  is_local := detaches_local faithful.is_local detaches clear
  zero_free := zero_free_detaches faithful.zero_free detaches

omit detaches clear in
/-- Where the slot is 0, the partition gives what is left of it, times the phase. -/
theorem value_without {index : BasisState} (clearHere : index.isOne slot = false) :
    owned.state.value (index.restrict owned.members) =
      leavingPhase owned slot *
        (without owned slot).state.value (index.restrict (without owned slot).members) := by
  have kept : index.restrict owned.members = index.restrict (others owned slot) := by
    apply BasisState.ext_is_one
    intro position _
    by_cases here : position = slot
    · rw [BasisState.is_one_restrict, BasisState.is_one_restrict, here, clearHere, Bool.false_and,
        Bool.false_and]
    · have same : position ∈ owned.members ↔ position ∈ others owned slot := by
        simp [others, here]
      simp only [BasisState.is_one_restrict, same]
  rw [kept, leavingPhase, without]
  by_cases nobody : (others owned slot).isEmpty
  · rw [if_pos nobody, if_pos nobody, List.isEmpty_iff.1 nobody, Partition.vacant,
      BasisState.restrict_nil, SparseState.value_ground, if_pos rfl, mul_one]
  · rw [if_neg nobody, if_neg nobody, one_mul]

theorem value_detached (faithful : arena.Faithful) (index : BasisState) :
    arena.whole.value index = leavingPhase owned slot * left.whole.value index := by
  have leftFaithful := faithful_detaches detaches clear faithful
  have owned' := detaches_owns_iff detaches
  by_cases one : index.isOne slot = true
  · -- Nothing is stored there before, and the slot has no owner afterwards.
    have outside : ¬left.Covers index := fun covers => ((owned' slot).1 (covers slot one)).1 rfl
    rw [value_of_not_covers leftFaithful.well_formed leftFaithful.is_local outside, mul_zero]
    by_cases covers : arena.Covers index
    · rw [value_of_covers faithful.well_formed faithful.is_local covers,
        amplitude_eq_spectators detaches.found]
      have bit : (index.restrict owned.members).isOne slot = true := by
        rw [BasisState.is_one_restrict, one, decide_eq_true detaches.member, Bool.and_true]
      have nothing : owned.state.value (index.restrict owned.members) = 0 := by
        by_contra different
        rw [clear _ (SparseState.stores_of_value different)] at bit
        cases bit
      rw [nothing, zero_mul]
    · exact value_of_not_covers faithful.well_formed faithful.is_local covers
  · have clearHere : index.isOne slot = false := Bool.eq_false_iff.2 one
    have covers_iff : left.Covers index ↔ arena.Covers index := by
      refine forall₂_congr fun position isOne => ?_
      have different : position ≠ slot := fun same => one (same ▸ isOne)
      rw [owned' position, and_iff_right different]
    by_cases covers : arena.Covers index
    · have standsLeft := detaches.partitions place
      rw [if_pos rfl] at standsLeft
      have spectators : left.spectators place index = arena.spectators place index := by
        apply spectators_eq detaches.found _ ⟨_, standsLeft⟩
        intro elsewhere different
        rw [detaches.partitions, if_neg different]
      rw [value_of_covers faithful.well_formed faithful.is_local covers,
        value_of_covers leftFaithful.well_formed leftFaithful.is_local (covers_iff.2 covers),
        amplitude_eq_spectators detaches.found, amplitude_eq_spectators standsLeft, spectators,
        value_without clearHere, mul_assoc]
    · rw [value_of_not_covers faithful.well_formed faithful.is_local covers,
        value_of_not_covers leftFaithful.well_formed leftFaithful.is_local
          (mt covers_iff.1 covers), mul_zero]

end Detach

theorem leaving_phase_of_shared {owned : Partition R} {slot other : Nat}
    (member : other ∈ owned.members) (different : other ≠ slot) : leavingPhase owned slot = 1 := by
  have shared : other ∈ others owned slot := by simp [others, member, different]
  rw [leavingPhase, if_neg]
  rw [List.isEmpty_iff]
  exact List.ne_nil_of_mem shared

/-- A lone slot that is 0 has all the probability of its partition. -/
theorem norm_sq_leaving {owned : Partition R} {slot : Nat} (isLocal : owned.Local)
    (clear : ∀ index, owned.state.Stores index → index.isOne slot = false)
    (total : owned.state.totalProbability = 1) : (leavingPhase owned slot).normSq = 1 := by
  unfold leavingPhase
  split_ifs with nobody
  · rw [← total]
    apply SparseState.norm_sq_of_only
    intro index stored
    apply BasisState.ext_is_one
    intro position _
    rw [BasisState.is_one_zero, Bool.eq_false_iff]
    intro one
    have lone : position ∈ others owned slot := by
      have different : position ≠ slot := by
        rintro rfl
        rw [clear index stored] at one
        cases one
      simp [others, different, isLocal index stored position one]
    rw [List.isEmpty_iff.1 nobody] at lone
    cases lone
  · rw [Amplitude.norm_sq_eq, Amplitude.one_re, Amplitude.one_im, mul_one, mul_zero, add_zero]

end Arena

/-! ### Measuring and freeing -/

/-- Every partition in use has total probability 1. -/
def Arena.Normalized (arena : Arena R) : Prop :=
  ∀ partition ∈ arena.inUse, partition.state.totalProbability = 1

theorem Arena.normalized_with_state {arena : Arena R} (normalized : arena.Normalized) {place : Nat}
    {state : SparseState R} (total : state.totalProbability = 1) :
    (arena.withState place state).Normalized := by
  intro partition inUse
  obtain ⟨other, used, found⟩ := mem_in_use_iff.1 inUse
  rw [partition_with_state] at found
  split_ifs at found
  · obtain ⟨before, _, same⟩ := Option.map_eq_some_iff.1 found
    rw [← same]
    exact total
  · exact normalized partition (mem_in_use_iff.2 ⟨other, used, found⟩)

/-- The partitions in other places are the same, and so are their slots. -/
structure Arena.Untouched (before after : Arena R) (place : Nat) : Prop where
  partitions {other : Nat} (elsewhere : other ≠ place) :
    after.partitions[other]? = before.partitions[other]?
  vacant_iff {other : Nat} (elsewhere : other ≠ place) :
    other ∈ after.vacant ↔ other ∈ before.vacant
  owner_iff {other : Nat} (elsewhere : other ≠ place) (slot : Nat) :
    after.owner? slot = some other ↔ before.owner? slot = some other

namespace Simulator

open SparseState Arena

omit [ExactScalar R] in
theorem untouched_with_state [Scalar R] (arena : Arena R) (place : Nat) (state : SparseState R) :
    Untouched arena (arena.withState place state) place where
  partitions elsewhere := by rw [partition_with_state, if_neg elsewhere.symm]
  vacant_iff _ := Iff.rfl
  owner_iff _ _ := Iff.rfl

omit [ExactScalar R] in
theorem untouched_detaches [Scalar R] {arena left : Arena R} {slot place : Nat}
    {owned : Partition R} {state : SparseState R} (owner : arena.owner? slot = some place)
    (detaches : Detaches (arena.withState place state) left slot place owned) :
    Untouched arena left place where
  partitions elsewhere := by
    rw [detaches.partitions, if_neg elsewhere, partition_with_state, if_neg elsewhere.symm]
  vacant_iff {other} elsewhere := by
    have vacant : left.vacant = if (others owned slot).isEmpty then place :: arena.vacant
        else arena.vacant := detaches.vacant
    rw [vacant]
    split_ifs
    · rw [List.mem_cons, or_iff_right elsewhere]
    · rfl
  owner_iff {other} elsewhere gone := by
    have owners : left.owner? gone = if gone = slot then none else arena.owner? gone :=
      detaches.owners gone
    rw [owners]
    split_ifs with same
    · rw [same, owner]
      exact iff_of_false (by simp) fun here => elsewhere (Option.some.inj here).symm
    · rfl

section Shared

variable {simulator : Simulator R} (faithful : simulator.arena.Faithful)
  (normalized : simulator.arena.Normalized) {slot place : Nat} {partition : Partition R}
  (owner : simulator.arena.owner? slot = some place)
  (stands : simulator.arena.partitions[place]? = some partition)

include faithful normalized owner stands

theorem branch_probability_global (outcome : Bool) :
    simulator.globalState.branchProbability slot outcome =
      partition.state.branchProbability slot outcome := by
  have used := faithful.well_formed.used_of_owner owner
  have member := faithful.well_formed.member_of_owner owner stands
  exact branch_probability_whole faithful.well_formed faithful.is_local normalized stands used
    member outcome

/-- The product chooses as the partition does. -/
theorem sample_global (draws : Draws) :
    simulator.globalState.sample slot draws = partition.state.sample slot draws := by
  have same := branch_probability_global faithful normalized owner stands
  rw [sample, sample, same, same]

/-- Collapsing the partition collapses the product. -/
theorem collapse_global (inside : slot < width) (outcome reset : Bool) :
    (simulator.arena.withState place (partition.state.collapse slot outcome reset)).whole =
      simulator.globalState.collapse slot outcome reset := by
  have used := faithful.well_formed.used_of_owner owner
  have member := faithful.well_formed.member_of_owner owner stands
  exact whole_collapse faithful stands used member outcome reset inside
    (branch_probability_global faithful normalized owner stands outcome)

theorem possible_outcome {draws rest : Draws} {bit : Bool}
    (sampled : partition.state.sample slot draws = (bit, rest)) :
    partition.state.branchProbability slot bit ≠ 0 := by
  have used := faithful.well_formed.used_of_owner owner
  apply sampled_branch _ sampled
  rw [normalized partition (mem_in_use_iff.2 ⟨place, used, stands⟩)]
  exact one_ne_zero

/-- Something is left by a reset. -/
theorem reset_value_ne_zero (draws : Draws) :
    ∃ index, (simulator.globalState.measureAndReset slot draws).1.value index ≠ 0 := by
  rcases sampled : partition.state.sample slot draws with ⟨bit, rest⟩
  have possible := possible_outcome faithful normalized owner stands sampled
  rw [← branch_probability_global faithful normalized owner stands] at possible
  have total := total_probability_collapse possible true
  rw [total_probability_eq] at total
  obtain ⟨index, ⟨amplitude, stored⟩, _⟩ := stores_of_weight (total.trans_ne one_ne_zero)
  refine ⟨index, ?_⟩
  rw [measureAndReset, sample_global faithful normalized owner stands, sampled]
  have zeroFree := zero_free_collapse (zero_free_whole faithful.zero_free) slot bit true
  change (simulator.globalState.collapse slot bit true).value index ≠ 0
  rw [value_of_get stored]
  exact zeroFree index amplitude stored

end Shared

section Operations

variable {simulator : Simulator R} (wellFormed : simulator.WellFormed)
  (faithful : simulator.arena.Faithful) (normalized : simulator.arena.Normalized)
  {qubit : QubitId} {slot place : Nat} {partition : Partition R}
  (found : simulator.allocation[qubit]? = some slot)
  (owner : simulator.arena.owner? slot = some place)
  (stands : simulator.arena.partitions[place]? = some partition) (draws : Draws)

include wellFormed faithful normalized found owner stands

/-- Measuring a qubit measures its slot in the product. -/
theorem measure_global :
    ∃ bit after, measure qubit (simulator.withDraws draws) = .ok bit after ∧
      simulator.globalState.measure slot draws = (bit, after.globalState, after.draws) ∧
      Untouched simulator.arena after.arena place := by
  have outcome := measure_outcome (wellFormed.with_draws draws) qubit
  generalize measure qubit (simulator.withDraws draws) = result at outcome
  cases outcome with
  | refused unknown =>
      change simulator.allocation[qubit]? = none at unknown
      rw [unknown] at found
      cases found
  | @measured _ _ _ bit rest known ownerHere standsHere sampled =>
      cases found.symm.trans known
      cases owner.symm.trans ownerHere
      cases stands.symm.trans standsHere
      refine ⟨bit, _, rfl, ?_, untouched_with_state _ _ _⟩
      have collapsed := collapse_global faithful normalized owner stands
        (wellFormed.allocated_lt_width ⟨qubit, found⟩) bit false
      rw [SparseState.measure, sample_global faithful normalized owner stands]
      change partition.state.sample slot draws = (bit, rest) at sampled
      rw [sampled]
      exact congrArg (fun state => (bit, state, rest)) collapsed.symm

/-- A clean free resets the slot in the product and takes it out; when it was the last one of its
partition, it takes a number with it. -/
theorem free_global :
    ∃ after, free qubit false (simulator.withDraws draws) = .ok () after ∧
      Untouched simulator.arena after.arena place ∧
      (simulator.globalState.measureAndReset slot draws).2 = after.draws ∧
      after.arena.ZeroFree ∧
      ∃ phase, phase = leavingPhase
          { partition with state := (partition.state.measureAndReset slot draws).1 } slot ∧
        phase.normSq = 1 ∧
        ∀ index, (simulator.globalState.measureAndReset slot draws).1.value index =
          phase * after.globalState.value index := by
  have outcome := free_outcome (wellFormed.with_draws draws) qubit false
  generalize free qubit false (simulator.withDraws draws) = result at outcome
  cases outcome with
  | refused unknown =>
      change simulator.allocation[qubit]? = none at unknown
      rw [unknown] at found
      cases found
  | parked _ isDirty => cases isDirty
  | @cleaned _ _ _ bit rest left known isClean ownerHere standsHere sampled detaches arena =>
      cases found.symm.trans known
      cases owner.symm.trans ownerHere
      cases stands.symm.trans standsHere
      change partition.state.sample slot draws = (bit, rest) at sampled
      have used := faithful.well_formed.used_of_owner owner
      have member := faithful.well_formed.member_of_owner owner stands
      have inside := wellFormed.allocated_lt_width ⟨qubit, found⟩
      have collapsed := faithful_collapse faithful stands used member bit true
      have clear (index : BasisState)
          (stored : (partition.state.collapse slot bit true).Stores index) :
          index.isOne slot = false := clear_of_reset inside stored
      have whole := collapse_global faithful normalized owner stands inside bit true
      have reset : partition.state.measureAndReset slot draws =
          (partition.state.collapse slot bit true, rest) := by
        rw [measureAndReset, sampled]
      have resetWhole : simulator.globalState.measureAndReset slot draws =
          (simulator.globalState.collapse slot bit true, rest) := by
        rw [measureAndReset, sample_global faithful normalized owner stands, sampled]
      rw [resetWhole, reset, ← whole]
      refine ⟨_, rfl, untouched_detaches owner detaches, rfl,
        (faithful_detaches detaches clear collapsed).zero_free, _, rfl, ?_,
        value_detached detaches clear collapsed⟩
      apply norm_sq_leaving _ clear
      · exact total_probability_collapse
          (possible_outcome faithful normalized owner stands sampled) true
      · exact inside_collapse (faithful.is_local place partition stands) member bit true

end Operations

/-! ### Two qubits -/

theorem total_probability_of_entries {state : SparseState R} {index : BasisState}
    {amplitude : Amplitude R} (listed : state.entries = [(index, amplitude)]) :
    state.totalProbability = amplitude.normSq := by
  rw [total_probability_eq, weight, listed, Amplitudes.weight_cons, if_pos rfl]
  exact add_zero _

theorem flipped_entries :
    (flipped.arena.partitions[0]?).map (·.state.entries) =
        some [(BasisState.zero.flip 0, (.one : Amplitude Real))] ∧
      (flipped.arena.partitions[1]?).map (·.state.entries) =
        some [(.zero, (.one : Amplitude Real))] := by
  constructor <;> cbv

theorem flipped_normalized : flipped.arena.Normalized := by
  have size : flipped.arena.partitions.size = 2 := by decide +kernel
  have unit : (.one : Amplitude Real).normSq = 1 := by simp [Amplitude.norm_sq_eq, Amplitude.one]
  obtain ⟨first, second⟩ := flipped_entries
  intro partition listed
  obtain ⟨place, _, found⟩ := mem_in_use_iff.1 listed
  have inside := (Array.getElem?_eq_some_iff.1 found).1
  rw [size] at inside
  interval_cases place
  · rw [found] at first
    exact (total_probability_of_entries (Option.some.inj first)).trans unit
  · rw [found] at second
    exact (total_probability_of_entries (Option.some.inj second)).trans unit

theorem gate_alone {before : Simulator R} (wellFormed : before.WellFormed) {qubit : QubitId}
    {slot place : Nat} {partition : Partition R} (found : before.allocation[qubit]? = some slot)
    (owner : before.arena.owner? slot = some place)
    (stands : before.arena.partitions[place]? = some partition) (gate : Gate R) :
    applyGate gate qubit [] before = .ok () { before with
      arena := before.arena.withState place (partition.state.applyGate gate slot []) } := by
  have operands : before.Operands [qubit] [slot] := ⟨List.nodup_singleton qubit, by simp [found]⟩
  have outcome := gate_outcome wellFormed gate qubit []
  generalize applyGate gate qubit [] before = result at outcome
  cases outcome with
  | refused refused =>
      rw [(slots_of_operands before _ _).2 operands] at refused
      cases refused
  | skipped read decided =>
      have same := (slots_of_operands before _ _).2 read
      rw [(slots_of_operands before _ _).2 operands] at same
      cases same
      obtain ⟨_, member, _⟩ := decided
      cases member
  | applied read matters gathers =>
      have same := (slots_of_operands before _ _).2 read
      rw [(slots_of_operands before _ _).2 operands] at same
      cases same
      cases matters.kept
      have merged := gathers.result
      rw [merge, ownerOf, owner] at merged
      cases merged
      cases stands.symm.trans gathers.found
      rfl

noncomputable def phased : Simulator Real :=
  leaves ((Operation.gate .s ⟨0⟩ []).perform flipped)

theorem phased_reachable : Reachable KeepsOthers phased := .step flipped_reachable trivial

theorem get_turned {state : SparseState Real}
    (listed : state.entries = [(BasisState.zero.flip 0, .one)]) (index : BasisState)
    (amplitude : Amplitude Real) :
    (state.applyGate .s 0 []).get? index = some amplitude ↔
      index = BasisState.zero.flip 0 ∧ amplitude = ⟨0, 1⟩ := by
  have set : (BasisState.zero.flip 0).isOne 0 = true := by decide
  have ones : (BasisState.zero.flip 0).allOnes [] = true := by decide
  have turned : (.one : Amplitude Real).mul ⟨0, 1⟩ = ⟨0, 1⟩ := one_mul (⟨0, 1⟩ : Amplitude Real)
  change (state.applyPhase none (some ⟨0, 1⟩) 0 []).get? index = some amplitude ↔ _
  rw [get_apply_phase, Option.map_eq_some_iff]
  constructor
  · rintro ⟨before, found, same⟩
    rw [← mem_entries_iff, listed, List.mem_singleton, Prod.mk.injEq] at found
    refine ⟨found.1, ?_⟩
    rw [← same, found.1, found.2, if_pos ones, if_pos set]
    exact turned
  · rintro ⟨rfl, rfl⟩
    refine ⟨.one, ?_, ?_⟩
    · rw [← mem_entries_iff, listed]
      exact List.mem_singleton_self _
    · rw [if_pos ones, if_pos set]
      exact turned

theorem gate_on_flipped (gate : Gate ℝ) {after : Simulator ℝ}
    (performed : leaves ((Operation.gate gate ⟨0⟩ []).perform flipped) = after) :
    ∃ (state : SparseState ℝ) (partition : Partition ℝ),
      state.entries = [(BasisState.zero.flip 0, .one)] ∧
      partition.state = state.applyGate gate 0 [] ∧ partition.members = [0] ∧
      after.arena.partitions[0]? = some partition ∧
      after.arena = flipped.arena.withState 0 partition.state := by
  obtain ⟨partition, stands, listed⟩ := Option.map_eq_some_iff.1 flipped_entries.1
  have found : flipped.allocation[(⟨0⟩ : QubitId)]? = some 0 := by decide +kernel
  have owner : flipped.arena.owner? 0 = some 0 := by decide +kernel
  have members : (flipped.arena.partitions[0]?).map (·.members) = some [0] := by decide +kernel
  rw [stands] at members
  have turned : after.arena = flipped.arena.withState 0 (partition.state.applyGate gate 0 []) := by
    rw [← performed, Operation.perform,
      gate_alone (reachable_well_formed flipped_reachable) found owner stands]
    rfl
  refine ⟨partition.state, { partition with state := partition.state.applyGate gate 0 [] }, listed,
    rfl, Option.some.inj members, ?_, turned⟩
  rw [turned]
  exact with_state_stands stands _

theorem phased_partition : ∃ partition : Partition Real, partition.members = [0] ∧
    phased.arena.partitions[0]? = some partition ∧
    phased.arena = flipped.arena.withState 0 partition.state ∧
    ∀ index amplitude, partition.state.get? index = some amplitude ↔
      index = BasisState.zero.flip 0 ∧ amplitude = ⟨0, 1⟩ := by
  obtain ⟨state, partition, listed, acted, members, stands, turned⟩ := gate_on_flipped .s rfl
  have stored := get_turned listed
  rw [← acted] at stored
  exact ⟨partition, members, stands, turned, stored⟩

theorem phased_normalized : phased.arena.Normalized := by
  obtain ⟨partition, _, _, turned, stored⟩ := phased_partition
  rw [turned]
  apply normalized_with_state flipped_normalized
  have only (index : BasisState) : partition.state.Stores index →
      index = BasisState.zero.flip 0 := fun ⟨_, there⟩ => ((stored index _).1 there).1
  rw [← norm_sq_of_only only, value_of_get ((stored _ _).2 ⟨rfl, rfl⟩), Amplitude.norm_sq_eq]
  simp

/-- The first qubit was flipped and rotated to both values. -/
noncomputable def rotated : Simulator Real :=
  leaves ((Operation.gate .h ⟨0⟩ []).perform flipped)

theorem rotated_reachable : Reachable KeepsOthers rotated := .step flipped_reachable trivial

theorem rotated_partition : ∃ partition : Partition Real, partition.members = [0] ∧
    rotated.arena.partitions[0]? = some partition ∧
    rotated.arena = flipped.arena.withState 0 partition.state ∧
    partition.state = ⟨.ofEntries (evenly (BasisState.zero.flip 0) 0)⟩ := by
  obtain ⟨state, partition, listed, acted, members, stands, turned⟩ := gate_on_flipped .h rfl
  exact ⟨partition, members, stands, turned, acted.trans (hadamard_of_single (by decide) listed)⟩

theorem branch_probability_evenly {origin : BasisState} {slot : Nat} (inside : slot < width)
    (outcome : Bool) : (⟨.ofEntries (evenly origin slot)⟩ : SparseState ℝ).branchProbability slot
      outcome = 1 / 2 := by
  have half : ∀ entry ∈ evenly origin slot, entry.2.normSq = 1 / 2 := fun _ => evenly_half
  have first := half _ List.mem_cons_self
  have second := half _ (List.mem_cons_of_mem _ (List.mem_singleton_self _))
  rw [branch_probability_eq, weight,
    Amplitudes.weight_perm (Amplitudes.entries_perm (evenly_distinct inside)), evenly,
    Amplitudes.weight_cons, Amplitudes.weight_cons, BasisState.is_one_flip_self _ inside, first,
    second, Amplitudes.weight]
  cases origin.isOne slot <;> cases outcome <;> simp

theorem rotated_normalized : rotated.arena.Normalized := by
  obtain ⟨partition, _, _, turned, state⟩ := rotated_partition
  rw [turned, state]
  apply normalized_with_state flipped_normalized
  rw [total_eq_branches _ 0, branch_probability_evenly (by decide),
    branch_probability_evenly (by decide)]
  norm_num

/-- Seen in the product, the rotated qubit is 0 and 1 with the same probability. -/
theorem rotated_undecided : rotated.globalState.Undecided 0 := by
  have faithful := reachable_faithful rotated_reachable
  obtain ⟨partition, members, stands, _, state⟩ := rotated_partition
  have used : 0 ∉ rotated.arena.vacant := by decide +kernel
  have half (outcome : Bool) : rotated.globalState.branchProbability 0 outcome = 1 / 2 := by
    have inside : 0 ∈ partition.members := by simp [members]
    have whole := branch_probability_whole faithful.well_formed faithful.is_local
      rotated_normalized stands used inside outcome
    rw [state, branch_probability_evenly (by decide)] at whole
    exact whole
  rw [Undecided, half, half]
  norm_num

/-! ### The whole operations -/

/-- Measuring a qubit gives the bit, takes the draws and leaves the product that measuring its slot
in the product does. A clean free leaves the product of a reset if other slots share the partition;
otherwise the state of the slot leaves too, which is a number of magnitude 1. All other partitions
stay as they are. -/
theorem measurement_local {simulator : Simulator R} (reached : Reachable KeepsOthers simulator)
    (normalized : simulator.arena.Normalized) {qubit : QubitId} {slot : Nat}
    (found : simulator.allocation[qubit]? = some slot) (draws : Draws) :
    ∃ place partition, simulator.arena.owner? slot = some place ∧
      simulator.arena.partitions[place]? = some partition ∧
      (∃ bit after, measure qubit (simulator.withDraws draws) = .ok bit after ∧
        simulator.globalState.measure slot draws = (bit, after.globalState, after.draws) ∧
        Untouched simulator.arena after.arena place) ∧
      ∃ after, free qubit false (simulator.withDraws draws) = .ok () after ∧
        Untouched simulator.arena after.arena place ∧
        (simulator.globalState.measureAndReset slot draws).2 = after.draws ∧
        ((∃ other ∈ partition.members, other ≠ slot) →
          (simulator.globalState.measureAndReset slot draws).1 = after.globalState) ∧
        ∃ phase, phase = leavingPhase
            { partition with state := (partition.state.measureAndReset slot draws).1 } slot ∧
          phase.normSq = 1 ∧
          ∀ index, (simulator.globalState.measureAndReset slot draws).1.value index =
            phase * after.globalState.value index := by
  have wellFormed := reachable_well_formed reached
  have faithful := reachable_faithful reached
  obtain ⟨place, owner⟩ := wellFormed.owned_of_allocated ⟨qubit, found⟩
  obtain ⟨partition, stands, _, _⟩ := wellFormed.arena.partition_of_owner owner
  obtain ⟨after, freed, untouched, drawn, zeroFree, phase, leaving, unit, same⟩ :=
    free_global wellFormed faithful normalized found owner stands draws
  refine ⟨place, partition, owner, stands,
    measure_global wellFormed faithful normalized found owner stands draws, after, freed, untouched,
    drawn, ?_, phase, leaving, unit, same⟩
  rintro ⟨other, member, different⟩
  have shared : phase = 1 := leaving.trans (leaving_phase_of_shared member different)
  apply ext_value _ (zero_free_whole zeroFree)
  · intro index
    rw [same index, shared, one_mul]
    rfl
  · rw [measureAndReset]
    exact zero_free_collapse (zero_free_whole faithful.zero_free) _ _ _

/-- Measuring the rotated qubit takes a draw, there and in the product. So does freeing it. -/
theorem rotated_measured_locally :
    (∃ bit after, measure ⟨0⟩ (rotated.withDraws (.ofSeed 7)) = .ok bit after ∧
      rotated.globalState.measure 0 (.ofSeed 7) = (bit, after.globalState, after.draws) ∧
      after.draws = (Draws.ofSeed 7).next.2) ∧
    ∃ after, free ⟨0⟩ false (rotated.withDraws (.ofSeed 7)) = .ok () after ∧
      (rotated.globalState.measureAndReset 0 (.ofSeed 7)).2 = after.draws := by
  have found : rotated.allocation[(⟨0⟩ : QubitId)]? = some 0 := by decide +kernel
  obtain ⟨_, _, _, _, ⟨bit, after, measured, same, _⟩, left, freed, _, drawn, _⟩ :=
    measurement_local rotated_reachable rotated_normalized found (.ofSeed 7)
  have next := (sample_draws rotated.globalState 0 (.ofSeed 7)).1 rotated_undecided
  have draws : after.draws = (Draws.ofSeed 7).next.2 := by
    rw [← next]
    exact (congrArg (·.2.2) same).symm
  exact ⟨⟨bit, after, measured, same, draws⟩, left, freed, drawn⟩

/-- Without other qubits in its partition a freed qubit takes its phase with it, which a reset in
the product would have left there. -/
theorem lone_phase_lost :
    Reachable KeepsOthers phased ∧ phased.arena.Normalized ∧
      phased.allocation[(⟨0⟩ : QubitId)]? = some 0 ∧
      ∃ after, free ⟨0⟩ false (phased.withDraws (.constant 0)) = .ok () after ∧
        (phased.globalState.measureAndReset 0 (.constant 0)).1 ≠ after.globalState := by
  have found : phased.allocation[(⟨0⟩ : QubitId)]? = some 0 := by decide +kernel
  have owner : phased.arena.owner? 0 = some 0 := by decide +kernel
  have faithful := reachable_faithful phased_reachable
  obtain ⟨partition, members, stands, _, stored⟩ := phased_partition
  obtain ⟨after, freed, _, _, _, phase, leaving, _, same⟩ :=
    free_global (reachable_well_formed phased_reachable) faithful phased_normalized found owner
      stands (.constant 0)
  refine ⟨phased_reachable, phased_normalized, found, after, freed, fun unchanged => ?_⟩
  -- All that the partition stores is imaginary, so the number that leaves is not 1.
  have imaginary (index : BasisState) : (partition.state.value index).re = 0 := by
    rw [value]
    cases there : partition.state.get? index with
    | none => rfl
    | some amplitude =>
        rw [((stored index amplitude).1 there).2]
        rfl
  have phaseImaginary : phase.re = 0 := by
    have nobody : (others { partition with
        state := (partition.state.measureAndReset 0 (.constant 0)).1 } 0).isEmpty = true := by
      simp [others, members]
    rw [leaving, leavingPhase, if_pos nobody, measureAndReset,
      value_collapse _ (by decide : 0 < width)]
    split_ifs
    · exact (congrArg (· / _) (imaginary _)).trans (zero_div _)
    · rfl
  -- The product has an amplitude, which the number would have to keep.
  obtain ⟨index, different⟩ :=
    reset_value_ne_zero faithful phased_normalized owner stands (.constant 0)
  have kept := same index
  rw [← unchanged] at kept
  have unit := Amplitude.eq_one_of_mul different kept
  rw [unit, Amplitude.one_re] at phaseImaginary
  exact one_ne_zero phaseImaginary

end Simulator

end SparseQuantum
