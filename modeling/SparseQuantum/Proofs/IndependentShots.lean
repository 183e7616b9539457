import Mathlib
import SparseQuantum.Machine.Sample
import SparseQuantum.Proofs.Grouping
import SparseQuantum.Proofs.ProgramRuns

/-!
# Shots that do not influence each other

Sampling shoots again and again with one machine. A run begins by preparing the machine, and what
it finds then depends on the graph, the plugins and the seed alone, none of which an earlier run
changes. So each shot ends as the only run of a new machine would, and the histogram counts those.
-/

namespace SparseQuantum

set_option autoImplicit false

/-! ### Counting -/

namespace Counts

theorem get_add (counts : Counts) (value other : Int) :
    (counts.add value)[other]?.getD 0 =
      counts[other]?.getD 0 + if value = other then 1 else 0 := by
  rw [add, Std.ExtTreeMap.getElem?_alter]
  by_cases same : value = other
  · rw [if_pos same, if_pos (by rw [same]; exact Std.ReflOrd.compare_self), same]
    rfl
  · rw [if_neg same, if_neg fun equal => same (Std.LawfulEqOrd.eq_of_compare equal)]
    rfl

/-- What is counted has been seen. -/
def AllPositive (counts : Counts) : Prop :=
  ∀ (value : Int) (count : Nat), counts[value]? = some count → 0 < count

theorem all_positive_add {counts : Counts} (positive : counts.AllPositive) (value : Int) :
    (counts.add value).AllPositive := by
  intro other count found
  have added := get_add counts value other
  rw [found, Option.getD_some] at added
  by_cases same : value = other
  · rw [if_pos same] at added
    omega
  · rw [add, Std.ExtTreeMap.getElem?_alter,
      if_neg fun equal => same (Std.LawfulEqOrd.eq_of_compare equal)] at found
    exact positive other count found

theorem total_eq_sum (counts : Counts) :
    counts.total = ∑ value ∈ counts.keys.toFinset, counts[value]?.getD 0 := by
  have distinct : counts.keys.Nodup := Std.ExtTreeMap.nodup_keys
  have added (entries : List (Int × Nat)) (start : Nat) :
      entries.foldl (fun total entry => total + entry.2) start =
        start + (entries.map Prod.snd).sum := by
    induction entries generalizing start with
    | nil => rfl
    | cons entry rest induction =>
        rw [List.foldl_cons, induction, List.map_cons, List.sum_cons, Nat.add_assoc]
  have stored : counts.toList.map (fun entry => counts[entry.1]?.getD 0) =
      counts.toList.map Prod.snd := by
    refine List.map_congr_left fun entry member => ?_
    rw [Std.ExtTreeMap.mem_toList_iff_getElem?_eq_some.1 member, Option.getD_some]
  rw [List.sum_toFinset _ distinct, ← Std.ExtTreeMap.map_fst_toList_eq_keys, List.map_map, total,
    Std.ExtTreeMap.foldl_eq_foldl_toList, added, Nat.zero_add, ← stored]
  rfl

def ofShots (values : Nat → Int64) (shots : Nat) : Counts :=
  (List.range shots).foldl (fun counts shot => counts.add (values shot).toInt) .empty

variable (values : Nat → Int64)

theorem of_shots_succ (shots : Nat) :
    ofShots values (shots + 1) = (ofShots values shots).add (values shots).toInt := by
  rw [ofShots, List.range_succ, List.foldl_append]
  rfl

theorem get_of_shots (shots : Nat) (value : Int) :
    (ofShots values shots)[value]?.getD 0 =
      Nat.count (fun shot => (values shot).toInt = value) shots := by
  induction shots with
  | zero => rfl
  | succ shots induction => rw [of_shots_succ, get_add, induction, Nat.count_succ]

theorem all_positive_of_shots (shots : Nat) : (ofShots values shots).AllPositive := by
  induction shots with
  | zero =>
      intro value count found
      cases found
  | succ shots induction =>
      rw [of_shots_succ]
      exact all_positive_add induction _

theorem total_of_shots (shots : Nat) : (ofShots values shots).total = shots := by
  have counted (shot : Nat) (inside : shot ∈ Finset.range shots) :
      (values shot).toInt ∈ (ofShots values shots).keys.toFinset := by
    rw [List.mem_toFinset, Std.ExtTreeMap.mem_keys]
    by_contra absent
    have seen := get_of_shots values shots (values shot).toInt
    rw [Std.ExtTreeMap.getElem?_eq_none absent, Option.getD_none, eq_comm,
      Nat.count_iff_forall_not] at seen
    exact seen shot (Finset.mem_range.1 inside) rfl
  rw [total_eq_sum]
  simp only [get_of_shots, Nat.count_eq_card_filter_range]
  rw [← Finset.card_eq_sum_card_fiberwise counted, Finset.card_range]

end Counts

variable {R : Type} [Scalar R]

/-! ### Runs with the same seed -/

/-- A run that ends ends so however many more blocks it may take. -/
theorem Run.loop_ends_within {graph : BlockGraph R} {registry : Registry R}
    {budget more number : Nat} {state : RunState R} {outcome : Outcome R}
    (ended : loop graph registry budget number state = some outcome) (enough : budget ≤ more) :
    loop graph registry more number state = some outcome := by
  induction budget generalizing more number state with
  | zero => cases ended
  | succ budget induction =>
      obtain ⟨rest, rfl⟩ := Nat.exists_eq_add_of_le' enough
      unfold loop at ended ⊢
      cases answer : step graph registry number state with
      | error interruption after =>
          rw [answer] at ended
          exact ended
      | ok next after =>
          rw [answer] at ended
          cases next with
          | none => exact ended
          | some next => exact induction ended (Nat.le_add_left budget rest)

def SampleStop.ofInterruption : Interruption R → SampleStop R
  | .failure label instruction cause => .error (.failure label instruction cause)
  | .fault flaw => .fault flaw

namespace Machine

def Report.ending (report : Report R) (register : RegisterId) :
    Except (Interruption R) Int64 :=
  report.result.map fun _ => report.machine.simulator.register register

theorem run_ends_within {machine : Machine R} {settings : Settings} {budget more : Nat}
    {report : Report R} (ended : machine.run settings budget = some report)
    (enough : budget ≤ more) : machine.run settings more = some report := by
  unfold run at ended ⊢
  obtain ⟨outcome, looped, same⟩ := Option.map_eq_some_iff.1 ended
  exact Option.map_eq_some_iff.2 ⟨outcome, Run.loop_ends_within looped enough, same⟩

/-- Whatever seed is pinned, runs find the same in both machines. -/
def Interchangeable (settings : Settings) (first second : Machine R) : Prop :=
  ∀ seed, (first.withSeed settings seed).prepare settings =
    (second.withSeed settings seed).prepare settings

theorem run_interchangeable {settings : Settings} {first second : Machine R}
    (same : Interchangeable settings first second) (seed : UInt64) (budget : Nat) :
    (first.withSeed settings seed).run settings budget =
      (second.withSeed settings seed).run settings budget := by
  unfold run
  rw [same seed]

/-- The simulator, the seed and the search path that a run leaves are replaced by the next run. -/
theorem interchangeable_after_run {settings : Settings} {machine : Machine R} {seed : UInt64}
    {budget : Nat} {report : Report R}
    (ended : (machine.withSeed settings seed).run settings budget = some report) :
    Interchangeable settings report.machine machine := by
  obtain ⟨outcome, _, same⟩ := Option.map_eq_some_iff.1 ended
  intro next
  rw [← same]
  unfold prepare withSeed
  cases machine.followsSearchPath <;> rfl

/-! ### Shots -/

theorem shoot_eq {settings : Settings} {machine : Machine R} {budget : Nat}
    {register : RegisterId} {seed : UInt64} {report : Report R}
    (ended : (machine.withSeed settings seed).run settings budget = some report) :
    machine.shoot settings budget register seed =
      match report.ending register with
      | .ok value => .ok (value, report.machine)
      | .error interruption => .error (.ofInterruption interruption) := by
  unfold shoot Report.ending
  rw [ended]
  dsimp only
  cases report.result with
  | ok done => rfl
  | error interruption => cases interruption <;> rfl

def EndsWith (machine : Machine R) (settings : Settings) (budget : Nat) (register : RegisterId)
    (seed : UInt64) (ending : Except (Interruption R) Int64) : Prop :=
  ∃ report, (machine.withSeed settings seed).run settings budget = some report ∧
    report.ending register = ending

variable {settings : Settings} {budget : Nat} {register : RegisterId} {fresh : Machine R}

/-- A shot with a machine that has run ends as a shot with a fresh one. -/
theorem shoot_leaves {machine : Machine R} (same : Interchangeable settings machine fresh)
    {seed : UInt64} {value : Int64}
    (ends : fresh.EndsWith settings budget register seed (.ok value)) :
    ∃ after, machine.shoot settings budget register seed = .ok (value, after) ∧
      Interchangeable settings after fresh := by
  obtain ⟨report, ended, ending⟩ := ends
  rw [← run_interchangeable same] at ended
  have later := interchangeable_after_run ended
  refine ⟨report.machine, ?_, fun next => (later next).trans (same next)⟩
  rw [shoot_eq ended, ending]

theorem shoot_stops {machine : Machine R} (same : Interchangeable settings machine fresh)
    {seed : UInt64} {interruption : Interruption R}
    (ends : fresh.EndsWith settings budget register seed (.error interruption)) :
    machine.shoot settings budget register seed = .error (.ofInterruption interruption) := by
  obtain ⟨report, ended, ending⟩ := ends
  rw [← run_interchangeable same] at ended
  rw [shoot_eq ended, ending]

theorem next_seed (seed : UInt64) (shot : Nat) :
    seed + 1 + .ofNat shot = seed + .ofNat (shot + 1) := by
  rw [UInt64.add_assoc, UInt64.ofNat_add, UInt64.add_comm 1]
  rfl

theorem tally_first {machine : Machine R} (same : Interchangeable settings machine fresh)
    {shots : Nat} {seed : UInt64} {values : Nat → Int64}
    (ends : ∀ shot < shots + 1,
      fresh.EndsWith settings budget register (seed + .ofNat shot) (.ok (values shot))) :
    ∃ after, Interchangeable settings after fresh ∧
      (∀ shot < shots, fresh.EndsWith settings budget register (seed + 1 + .ofNat shot)
        (.ok (values (shot + 1)))) ∧
      ∀ others counts, machine.tally settings budget register (others + 1) seed counts =
        after.tally settings budget register others (seed + 1)
          (counts.add (values 0).toInt) := by
  have first := ends 0 (Nat.succ_pos shots)
  rw [show seed + .ofNat 0 = seed from UInt64.add_zero seed] at first
  obtain ⟨after, shot, later⟩ := shoot_leaves same first
  refine ⟨after, later, ?_, ?_⟩
  · intro shot inside
    rw [next_seed]
    exact ends (shot + 1) (Nat.succ_lt_succ inside)
  · intro others counts
    rw [tally, shot]

theorem tally_leaves {machine : Machine R} (same : Interchangeable settings machine fresh)
    {shots : Nat} {seed : UInt64} {values : Nat → Int64}
    (ends : ∀ shot < shots,
      fresh.EndsWith settings budget register (seed + .ofNat shot) (.ok (values shot)))
    (counts : Counts) :
    machine.tally settings budget register shots seed counts =
      .ok ((List.range shots).foldl (fun counts shot => counts.add (values shot).toInt)
        counts) := by
  induction shots generalizing machine seed values counts with
  | zero => rfl
  | succ shots induction =>
      obtain ⟨after, later, others, onward⟩ := tally_first same ends
      rw [onward, List.range_succ_eq_map, List.foldl_cons, List.foldl_map]
      exact induction later others _

theorem tally_stops {machine : Machine R} (same : Interchangeable settings machine fresh)
    {failing shots : Nat} (inside : failing < shots) {seed : UInt64} {values : Nat → Int64}
    (ends : ∀ shot < failing,
      fresh.EndsWith settings budget register (seed + .ofNat shot) (.ok (values shot)))
    {interruption : Interruption R}
    (stops : fresh.EndsWith settings budget register (seed + .ofNat failing)
      (.error interruption)) (counts : Counts) :
    machine.tally settings budget register shots seed counts =
      .error (.ofInterruption interruption) := by
  induction failing generalizing machine shots seed values counts with
  | zero =>
      obtain ⟨rest, rfl⟩ := Nat.exists_eq_add_of_le' inside
      rw [show seed + .ofNat 0 = seed from UInt64.add_zero seed] at stops
      rw [tally, shoot_stops same stops]
  | succ failing induction =>
      obtain ⟨rest, rfl⟩ := Nat.exists_eq_add_of_le' (Nat.zero_lt_of_lt inside)
      obtain ⟨after, later, others, onward⟩ := tally_first same ends
      rw [onward]
      rw [← next_seed] at stops
      exact induction later (Nat.lt_of_succ_lt_succ inside) others stops _

theorem ends_with_more {machine : Machine R} {more : Nat} {seed : UInt64}
    {ending : Except (Interruption R) Int64}
    (ends : machine.EndsWith settings budget register seed ending) (enough : budget ≤ more) :
    machine.EndsWith settings more register seed ending := by
  obtain ⟨report, ended, same⟩ := ends
  exact ⟨report, run_ends_within ended enough, same⟩

end Machine

/-! ### Histograms -/

namespace Program

variable {program : Program R} {settings : Settings} {register : RegisterId}

/-- Run once with this seed, a new machine of the program ends so. -/
def Ends (program : Program R) (settings : Settings) (register : RegisterId) (seed : UInt64)
    (ending : Except (Interruption R) Int64) : Prop :=
  ∃ machine budget, Machine.ofProgram settings program = .ok machine ∧
    machine.EndsWith settings budget register seed ending

theorem of_program_ok {graph : BlockGraph R} (accepted : program.resolve = .ok graph)
    (settings : Settings) :
    Machine.ofProgram settings program = .ok (.ofGraph settings graph) := by
  rw [Machine.ofProgram, accepted]
  rfl

theorem exists_enough {graph : BlockGraph R} (accepted : program.resolve = .ok graph)
    {seed : UInt64} {shots : Nat} {ending : Nat → Except (Interruption R) Int64}
    (terminates : ∀ shot < shots,
      program.Ends settings register (seed + .ofNat shot) (ending shot)) :
    ∃ enough, ∀ budget, enough ≤ budget → ∀ shot < shots,
      (Machine.ofGraph settings graph).EndsWith settings budget register (seed + .ofNat shot)
        (ending shot) := by
  induction shots with
  | zero => exact ⟨0, fun _ _ _ absurdity => absurd absurdity (Nat.not_lt_zero _)⟩
  | succ shots induction =>
      obtain ⟨earlier, holds⟩ := induction fun shot inside =>
        terminates shot (Nat.lt_succ_of_lt inside)
      obtain ⟨machine, last, made, ends⟩ := terminates shots (Nat.lt_succ_self shots)
      rw [of_program_ok accepted] at made
      cases made
      refine ⟨max earlier last, fun budget enough shot inside => ?_⟩
      rcases Nat.lt_succ_iff_lt_or_eq.1 inside with before | same
      · exact holds budget ((Nat.le_max_left _ _).trans enough) shot before
      · rw [same]
        exact Machine.ends_with_more ends ((Nat.le_max_right _ _).trans enough)

/-- Sampling from this seed leaves these values counted. -/
theorem sample_leaves {graph : BlockGraph R} (accepted : program.resolve = .ok graph)
    {budget : Nat} {seed : UInt64} {shots : Nat} {values : Nat → Int64}
    (ends : ∀ shot < shots, (Machine.ofGraph settings graph).EndsWith settings budget register
      (seed + .ofNat shot) (.ok (values shot))) :
    program.sample settings budget register shots seed = .ok (.ofShots values shots) := by
  rw [sample, of_program_ok accepted]
  exact Machine.tally_leaves (fun _ => rfl) ends _

/-- Sampling a program whose shots all come to an end takes any large enough number of blocks. If no
shot fails, every value is counted as often as new machines of the program, each run once with the
shot's own seed, leave it in the register. What is counted has been seen, the counts add up to the
shots, and the shots can be taken in two parts, the second one with the seeds that follow. If a shot
fails, the first one to do so decides. -/
theorem sample_counts_fresh_runs {graph : BlockGraph R} (accepted : program.resolve = .ok graph)
    {seed : UInt64} {shots : Nat} {ending : Nat → Except (Interruption R) Int64}
    (terminates : ∀ shot < shots,
      program.Ends settings register (seed + .ofNat shot) (ending shot)) :
    ∃ enough, ∀ budget, enough ≤ budget →
      (∀ values : Nat → Int64, (∀ shot < shots, ending shot = .ok (values shot)) →
        ∃ counts, program.sample settings budget register shots seed = .ok counts ∧
          (∀ value : Int, counts[value]?.getD 0 =
            Nat.count (fun shot => (values shot).toInt = value) shots) ∧
          (∀ (value : Int) (count : Nat), counts[value]? = some count → 0 < count) ∧
          counts.total = shots ∧
          ∀ first second, first + second = shots → ∃ early late,
            program.sample settings budget register first seed = .ok early ∧
            program.sample settings budget register second (seed + .ofNat first) = .ok late ∧
            ∀ value : Int,
              counts[value]?.getD 0 = early[value]?.getD 0 + late[value]?.getD 0) ∧
      ∀ failing < shots, ∀ interruption, ending failing = .error interruption →
        (∀ earlier < failing, ∃ value, ending earlier = .ok value) →
          program.sample settings budget register shots seed =
            .error (.ofInterruption interruption) := by
  obtain ⟨enough, fresh⟩ := exists_enough accepted terminates
  refine ⟨enough, fun budget large => ⟨?_, ?_⟩⟩
  · intro values all
    have ends : ∀ shot < shots, (Machine.ofGraph settings graph).EndsWith settings budget register
        (seed + .ofNat shot) (.ok (values shot)) := by
      intro shot inside
      rw [← all shot inside]
      exact fresh budget large shot inside
    refine ⟨_, sample_leaves accepted ends, Counts.get_of_shots values shots,
      Counts.all_positive_of_shots values shots, Counts.total_of_shots values shots, ?_⟩
    intro first second split
    have early : ∀ shot < first, (Machine.ofGraph settings graph).EndsWith settings budget
        register (seed + .ofNat shot) (.ok (values shot)) :=
      fun shot inside => ends shot (by omega)
    have late : ∀ shot < second, (Machine.ofGraph settings graph).EndsWith settings budget
        register (seed + .ofNat first + .ofNat shot) (.ok (values (first + shot))) := by
      intro shot inside
      rw [UInt64.add_assoc, ← UInt64.ofNat_add]
      exact ends (first + shot) (by omega)
    refine ⟨_, _, sample_leaves accepted early, sample_leaves accepted late, ?_⟩
    intro value
    rw [← split, Counts.get_of_shots, Counts.get_of_shots, Counts.get_of_shots, Nat.count_add]
  · intro failing inside interruption fails earlier
    have chosen (shot : Nat) : ∃ value, shot < failing → ending shot = .ok value := by
      by_cases before : shot < failing
      · obtain ⟨value, same⟩ := earlier shot before
        exact ⟨value, fun _ => same⟩
      · exact ⟨0, fun absurdity => absurd absurdity before⟩
    choose values leaves using chosen
    have ends : ∀ shot < failing, (Machine.ofGraph settings graph).EndsWith settings budget
        register (seed + .ofNat shot) (.ok (values shot)) := by
      intro shot before
      rw [← leaves shot before]
      exact fresh budget large shot (before.trans inside)
    have stops := fresh budget large failing inside
    rw [fails] at stops
    rw [sample, of_program_ok accepted]
    exact Machine.tally_stops (fun _ => rfl) inside ends stops _

end Program

namespace Machine

def coin : Program Float where
  entry := "main"
  blocks := [⟨"main", [.alloc ⟨0⟩ false, .gate "h" [] ⟨0⟩ [], .measure [⟨0⟩] ⟨0⟩], .stop⟩]

def coinGraph : BlockGraph Float where
  blocks := [⟨"main", [.alloc ⟨0⟩ false, .gate .h ⟨0⟩ [], .measure [⟨0⟩] ⟨0⟩], .stop⟩]
  entry := 0
  last := 0

def coinSettings : Settings := ⟨"plugins", 7, "dumps", 4⟩

def tossed? (seed : UInt64) : Option Int64 :=
  (((ofGraph coinSettings coinGraph).withSeed coinSettings seed).run coinSettings 1).bind
    fun report => (report.ending ⟨0⟩).toOption

theorem coin_ends {seed : UInt64} {value : Int64} (tossed : tossed? seed = some value)
    (accepted : coin.resolve = .ok coinGraph) :
    coin.Ends coinSettings ⟨0⟩ seed (.ok value) := by
  obtain ⟨report, ended, shown⟩ := Option.bind_eq_some_iff.1 tossed
  refine ⟨_, 1, Program.of_program_ok accepted coinSettings, report, ended, ?_⟩
  cases ending : report.ending ⟨0⟩ with
  | ok left =>
      rw [ending] at shown
      cases shown
      rfl
  | error interruption =>
      rw [ending] at shown
      cases shown

/-- Three tosses, the second one with the seed 0. -/
theorem coin_tosses_counted :
    coin.resolve = .ok coinGraph ∧
    ∃ enough, ∀ budget, enough ≤ budget → ∃ counts,
      coin.sample coinSettings budget ⟨0⟩ 3 (-1) = .ok counts ∧ counts.total = 3 ∧
      counts[(0 : Int)]?.getD 0 = 1 ∧ counts[(1 : Int)]?.getD 0 = 2 := by
  have accepted : coin.resolve = .ok coinGraph := by cbv
  let values (shot : Nat) : Int64 := if shot = 0 then 0 else 1
  have terminates : ∀ shot < 3,
      coin.Ends coinSettings ⟨0⟩ (-1 + .ofNat shot) (.ok (values shot)) := by
    intro shot inside
    apply coin_ends _ accepted
    interval_cases shot <;> decide +kernel
  obtain ⟨enough, holds⟩ := Program.sample_counts_fresh_runs accepted terminates
  refine ⟨accepted, enough, fun budget large => ?_⟩
  obtain ⟨counts, sampled, counted, _, total, _⟩ :=
    (holds budget large).1 values fun _ _ => rfl
  refine ⟨counts, sampled, total, ?_, ?_⟩
  · rw [counted]
    decide
  · rw [counted]
    decide

end Machine

end SparseQuantum
