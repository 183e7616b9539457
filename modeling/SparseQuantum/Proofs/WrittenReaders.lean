import Mathlib
import SparseQuantum.Json.Reader
import SparseQuantum.Proofs.WrittenValues

/-!
# Reading what has been written

The readers give written values back: integers of 64 bits over their whole range, texts with all
their characters, and lists whose items are given back. Of a float this is a property of its own
text. What is given back is complete, so a reader that collects parts before it looks at them gets
all of them.
-/

namespace SparseQuantum.Json

set_option autoImplicit false

/-! ### Values without parts -/

theorem read_document_compact {α : Type} (read : Tree → Except Flaw α) (value : Value) :
    readDocument read value.compact = read value.tree := by
  rw [readDocument, Document.of_compact]
  cases read value.tree <;> rfl

theorem read_document_pretty {α : Type} (read : Tree → Except Flaw α) (value : Value) :
    readDocument read value.pretty = read value.tree := by
  rw [readDocument, Document.of_pretty]
  cases read value.tree <;> rfl

theorem fits_uint64 (number : UInt64) : FitsNumber number.toNat := by
  have below := number.toNat_lt_size
  exact ⟨by omega, by exact_mod_cast below⟩

theorem fits_int64 (number : Int64) : FitsNumber number.toInt := by
  have least := number.le_toInt
  have greatest := number.toInt_lt
  have signBit : Decimal.signBit = 9223372036854775808 := by decide
  have size : UInt64.size = 18446744073709551616 := by decide
  rw [FitsNumber]
  omega

theorem read_uint64_written (number : UInt64) :
    (Value.ofUInt64 number).tree.readUInt64 = .ok number := by
  have fits := fits_uint64 number
  have read : (Value.ofUInt64 number).tree = .number (.integer number.toNat) :=
    congrArg Tree.number (WrittenNumeral.of_int_number fits)
  rw [read, Tree.readUInt64, if_pos ⟨Int.natCast_nonneg _, fits.2⟩, Int.toNat_natCast,
    UInt64.ofNat_toNat]

theorem read_int64_written (number : Int64) :
    (Value.ofInt64 number).tree.readInt64 = .ok number := by
  have read : (Value.ofInt64 number).tree = .number (.integer number.toInt) :=
    congrArg Tree.number (WrittenNumeral.of_int_number (fits_int64 number))
  rw [read, Tree.readInt64, if_pos ⟨number.minValue_le_toInt, number.toInt_le⟩, Int64.ofInt_toInt]

/-- The text of the float alone gives the float back. -/
def ReadsBack (value : Float) : Prop :=
  readDocument Tree.readFloat (Value.real value).compact = .ok value

instance (value : Float) : Decidable (ReadsBack value) :=
  inferInstanceAs (Decidable (readDocument Tree.readFloat (Value.real value).compact = .ok value))

theorem ReadsBack.read {value : Float} (back : ReadsBack value) :
    (Value.real value).tree.readFloat = .ok value := by
  rw [ReadsBack, read_document_compact] at back
  exact back

/-! ### Lists -/

theorem read_list_written {α : Type} {read : Tree → Except Flaw α} {write : α → Value}
    (items : List α) (back : ∀ item ∈ items, read (write item).tree = .ok item) :
    (Value.array (items.map write)).tree.readList read = .ok items := by
  show (Value.itemsTree (items.map write)).readAll read = .ok items
  induction items with
  | nil => rfl
  | cons item items induction =>
      have first := back item List.mem_cons_self
      have rest := induction fun other inside => back other (List.mem_cons_of_mem _ inside)
      rw [List.map_cons, Value.itemsTree, Items.readAll, first]
      show (do .ok (item :: (← (Value.itemsTree (items.map write)).readAll read))) = _
      rw [rest]
      rfl

/-! ### Complete values -/

def Value.IsComplete (value : Value) : Prop := ∃ whole, value.tree.value? = .ok whole

theorem Value.text_is_complete (content : String) : (Value.text content).IsComplete := ⟨_, rfl⟩

theorem Value.bool_is_complete (value : Bool) : (Value.bool value).IsComplete := ⟨_, rfl⟩

theorem Value.integer_is_complete {value : Int} (fits : FitsNumber value) :
    (Value.integer value).IsComplete := by
  refine ⟨.integer value, ?_⟩
  rw [tree, WrittenNumeral.of_int_number fits]
  rfl

theorem Value.real_is_complete {value : Float} (back : ReadsBack value) :
    (Value.real value).IsComplete := by
  have read := back.read
  rw [tree] at read
  unfold IsComplete
  rw [tree]
  unfold Tree.readFloat at read
  split at read
  · next number same => exact ⟨.integer number, by rw [same]; rfl⟩
  · next number same => exact ⟨.real number, by rw [same]; rfl⟩
  · exact absurd read (by simp)

theorem Value.array_is_complete {items : List Value} (complete : ∀ item ∈ items, item.IsComplete) :
    (Value.array items).IsComplete := by
  suffices ∃ values, (itemsTree items).values? = .ok values by
    obtain ⟨values, same⟩ := this
    refine ⟨.array values, ?_⟩
    rw [tree, Tree.value?, same]
    rfl
  induction items with
  | nil => exact ⟨[], rfl⟩
  | cons item items induction =>
      obtain ⟨value, first⟩ := complete item List.mem_cons_self
      obtain ⟨values, rest⟩ := induction fun other inside =>
        complete other (List.mem_cons_of_mem _ inside)
      refine ⟨value :: values, ?_⟩
      rw [itemsTree, Items.values?, first]
      show (do .ok (value :: (← (itemsTree items).values?))) = _
      rw [rest]
      rfl

end SparseQuantum.Json
