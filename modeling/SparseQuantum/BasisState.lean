import SparseQuantum.Fault

/-!
One classical state of 1024 two-valued positions, kept as sixteen words of 64 bits with position 0
in the lowest bit of the first word. Basis states are ordered as the numbers they spell, which the
comparison decides from the highest word down (`compare_below_eq`); that makes the order total and
lawful, so basis states can key an ordered map.

Positions at or above the width read as 0 and cannot be changed. The functions of the section
on checked access refuse them instead, in the order in which they are met.
-/

namespace SparseQuantum

def width : Nat := 1024

abbrev wordBits : Nat := 64

abbrev wordCount : Nat := 16

abbrev Word := BitVec wordBits

structure BasisState where
  words : Vector Word wordCount
  deriving DecidableEq

namespace BasisState

def zero : BasisState := ⟨Vector.replicate wordCount 0⟩

def word (state : BasisState) (index : Nat) : Word := state.words[index]?.getD 0

def updateWord (state : BasisState) (index : Nat) (change : Word → Word) : BasisState :=
  ⟨state.words.setIfInBounds index (change (state.word index))⟩

/-- The state whose lowest 64 positions spell `low`. -/
def ofWord (low : Word) : BasisState := zero.updateWord 0 fun _ => low

def isOne (state : BasisState) (position : Nat) : Bool :=
  (state.word (position / wordBits)).getLsbD (position % wordBits)

def isZero (state : BasisState) (position : Nat) : Bool := !state.isOne position

def allOnes (state : BasisState) (positions : List Nat) : Bool := positions.all state.isOne

def wordMask (position : Nat) : Word := BitVec.twoPow wordBits (position % wordBits)

def flip (state : BasisState) (position : Nat) : BasisState :=
  state.updateWord (position / wordBits) (· ^^^ wordMask position)

def set (state : BasisState) (position : Nat) (value : Bool) : BasisState :=
  state.updateWord (position / wordBits) fun old =>
    if value then old ||| wordMask position else old &&& ~~~(wordMask position)

/-- The positions `first` and `second` exchanged: both flip exactly when they differ. -/
def swap (state : BasisState) (first second : Nat) : BasisState :=
  if state.isOne first != state.isOne second then (state.flip first).flip second else state

def union (left right : BasisState) : BasisState :=
  ⟨Vector.zipWith (· ||| ·) left.words right.words⟩

def isDisjoint (left right : BasisState) : Bool :=
  (Vector.zipWith (· &&& ·) left.words right.words).all (· == 0)

/-- The positions that are 1, in ascending order. -/
def ones (state : BasisState) : List Nat := (List.range width).filter state.isOne

def countOnes (state : BasisState) : Nat := state.ones.length

def ofOnes (positions : List Nat) : BasisState :=
  positions.foldl (fun state position => state.set position true) zero

/-- Ones in the lowest `count` bits, at most a whole word. -/
def lowMask (count : Nat) : Word := if wordBits ≤ count then BitVec.allOnes wordBits else
  BitVec.twoPow wordBits count - 1

/-- The lowest `size` positions as words, low word first, with nothing above them. -/
def truncate (state : BasisState) (size : Nat) : List Word :=
  let kept := min size width
  (List.range ((kept + (wordBits - 1)) / wordBits)).map fun index =>
    state.word index &&& lowMask (kept - wordBits * index)

/-- Decides on the words below `count`, the highest one first. -/
def compareBelow (left right : BasisState) : Nat → Ordering
  | 0 => .eq
  | index + 1 =>
      (compare (left.word index).toNat (right.word index).toNat).then
        (compareBelow left right index)

instance : Ord BasisState := ⟨fun left right => compareBelow left right wordCount⟩

/-- The positions from 0 to the highest 1, a character each; a lone 0 for the zero state. -/
def text (state : BasisState) : String :=
  let length := match state.ones.getLast? with
    | some highest => highest + 1
    | none => 1
  String.ofList ((List.range length).map fun position => if state.isOne position then '1' else '0')

def description (state : BasisState) : String :=
  "BitIndex([" ++ ", ".intercalate (state.ones.map toString) ++ "])"

/-! ### The number a basis state spells -/

def valueBelow (state : BasisState) : Nat → Nat
  | 0 => 0
  | index + 1 => valueBelow state index + (state.word index).toNat * Nat.pow 2 (wordBits * index)

/-- The 1024-bit number that the state spells, position 0 in its lowest bit. -/
def value (state : BasisState) : Nat := valueBelow state wordCount

theorem value_below_lt (state : BasisState) (count : Nat) :
    state.valueBelow count < Nat.pow 2 (wordBits * count) := by
  induction count with
  | zero => simp [valueBelow]
  | succ count induction =>
      have bound := (state.word count).isLt
      have split : Nat.pow 2 (wordBits * (count + 1)) =
          Nat.pow 2 wordBits * Nat.pow 2 (wordBits * count) := by
        rw [Nat.mul_succ, Nat.mul_comm (Nat.pow 2 wordBits)]
        exact Nat.pow_add 2 (wordBits * count) wordBits
      have step : (state.word count).toNat * Nat.pow 2 (wordBits * count) +
          Nat.pow 2 (wordBits * count) ≤ Nat.pow 2 wordBits * Nat.pow 2 (wordBits * count) := by
        have := Nat.mul_le_mul_right (Nat.pow 2 (wordBits * count)) (Nat.succ_le_of_lt bound)
        rwa [Nat.succ_mul] at this
      rw [valueBelow, split]
      omega

/-- Two numbers with a digit above a common base compare as the digits, then as the rest. -/
theorem compare_digits {base low low' high high' : Nat} (below : low < base)
    (below' : low' < base) :
    compare (low + high * base) (low' + high' * base) =
      (compare high high').then (compare low low') := by
  rcases Nat.lt_trichotomy high high' with less | same | more
  · have step : high * base + base ≤ high' * base := by
      have := Nat.mul_le_mul_right base (Nat.succ_le_of_lt less)
      rwa [Nat.succ_mul] at this
    rw [Nat.compare_eq_lt.2 less, Nat.compare_eq_lt.2 (by omega)]
    rfl
  · subst same
    have order : compare (low + high * base) (low' + high * base) = compare low low' := by
      rcases Nat.lt_trichotomy low low' with less | same | more
      · rw [Nat.compare_eq_lt.2 less, Nat.compare_eq_lt.2 (by omega)]
      · subst same; rw [Nat.compare_eq_eq.2 rfl, Nat.compare_eq_eq.2 rfl]
      · rw [Nat.compare_eq_gt.2 more, Nat.compare_eq_gt.2 (by omega)]
    rw [order, Nat.compare_eq_eq.2 rfl]
    rfl
  · have step : high' * base + base ≤ high * base := by
      have := Nat.mul_le_mul_right base (Nat.succ_le_of_lt more)
      rwa [Nat.succ_mul] at this
    rw [Nat.compare_eq_gt.2 more, Nat.compare_eq_gt.2 (by omega)]
    rfl

/-- Deciding from the highest word down is comparing the numbers. -/
theorem compare_below_eq (left right : BasisState) (count : Nat) :
    compareBelow left right count = compare (left.valueBelow count) (right.valueBelow count) := by
  induction count with
  | zero => rfl
  | succ count induction =>
      rw [compareBelow, valueBelow, valueBelow, induction,
        compare_digits (value_below_lt left count) (value_below_lt right count)]

theorem compare_eq (left right : BasisState) :
    compare left right = compare left.value right.value := by
  simp only [value, ← compare_below_eq]
  rfl

theorem compare_eq_compare_on :
    (compare : BasisState → BasisState → Ordering) = compareOn value := by
  funext left right
  rw [compare_eq, compareOn]

theorem word_eq_of_compare_below {left right : BasisState} {count : Nat}
    (same : compareBelow left right count = .eq) {index : Nat} (below : index < count) :
    left.word index = right.word index := by
  induction count with
  | zero => omega
  | succ count induction =>
      rw [compareBelow, Ordering.then_eq_eq] at same
      rcases Nat.lt_succ_iff_lt_or_eq.1 below with earlier | last
      · exact induction same.2 earlier
      · subst last
        exact BitVec.eq_of_toNat_eq (Std.LawfulEqOrd.eq_of_compare same.1)

theorem ext_word {left right : BasisState}
    (same : ∀ index, index < wordCount → left.word index = right.word index) : left = right := by
  cases left with
  | mk left =>
    cases right with
    | mk right =>
      congr 1
      apply Vector.ext
      intro index inside
      have entry := same index inside
      simpa [word, inside] using entry

instance : Std.TransOrd BasisState := by
  show Std.TransCmp (compare : BasisState → BasisState → Ordering)
  rw [compare_eq_compare_on]
  infer_instance

instance : Std.LawfulEqOrd BasisState where
  compare_self := by
    intro state
    rw [compare_eq_compare_on]
    exact Std.ReflCmp.compare_self
  eq_of_compare := by
    intro left right same
    exact ext_word fun index inside => word_eq_of_compare_below same inside

/-! ### Checked access -/

/-- The first of `positions` that lies outside the width. -/
def checkPositions (positions : List Nat) : Except Fault Unit :=
  match positions.find? (width ≤ ·) with
  | some position => .error (.position position)
  | none => .ok ()

def allOnes? (state : BasisState) : List Nat → Except Fault Bool
  | [] => .ok true
  | position :: rest =>
      if position < width then
        if state.isOne position then state.allOnes? rest else .ok false
      else .error (.position position)

/-- What testing that all of `positions` are 1 meets outside the width, if anything. -/
def strayRead? (state : BasisState) (positions : List Nat) : Option Fault :=
  match state.allOnes? positions with
  | .ok _ => none
  | .error fault => some fault

end BasisState

end SparseQuantum
