import Mathlib
import SparseQuantum.Dump.Snapshot
import SparseQuantum.Proofs.FiniteReaders
import SparseQuantum.Proofs.WrittenReaders

/-!
# Snapshots as texts

A dump that is written as a snapshot and read again is the same dump, whatever its words, the number
of its groups and the lengths of their lists. A snapshot may be written in other ways as well, with
arrays for records, with its members in another order or with members that nobody asked for. What is
read of such a text has a count of 64 bits and finite numbers only, so it is written and read again
as it is.
-/

namespace SparseQuantum

set_option autoImplicit false

open Json

deriving instance DecidableEq for Amplitude, DumpGroup, Dump

/-! ### Written dumps are read back -/

def Amplitude.floats (amplitude : Amplitude Float) : List Float := [amplitude.re, amplitude.im]

def DumpGroup.floats (group : DumpGroup Float) : List Float :=
  group.amplitudes.flatMap Amplitude.floats

def Dump.floats (dump : Dump Float) : List Float := dump.groups.flatMap DumpGroup.floats

theorem read_word_written (word : Word) : readWord (Value.ofNat word.toNat).tree = .ok word := by
  have read := read_uint64_written (UInt64.ofBitVec word)
  rw [Value.ofUInt64, UInt64.toNat_ofBitVec] at read
  rw [readWord, Value.ofNat, read]
  rfl

theorem Amplitude.read_written (amplitude : Amplitude Float)
    (back : ∀ value ∈ amplitude.floats, ReadsBack value) :
    Amplitude.read amplitude.toJson.tree = .ok amplitude := by
  have re := (back amplitude.re (by simp [floats])).read
  have im := (back amplitude.im (by simp [floats])).read
  rw [Value.tree] at re im
  simp [Amplitude.read, toJson, Value.tree, Value.itemsTree, Tree.readTuple, Items.readFloats,
    Items.next, Items.finish, re, im, bind, Except.bind]

theorem DumpGroup.read_written (group : DumpGroup Float)
    (back : ∀ value ∈ group.floats, ReadsBack value) :
    DumpGroup.read group.toJson.tree = .ok group := by
  have words := read_list_written group.pattern fun word _ => read_word_written word
  have amplitudes := read_list_written group.amplitudes fun amplitude inside =>
    amplitude.read_written fun value part =>
      back value (List.mem_flatMap.2 ⟨amplitude, inside, part⟩)
  rw [Value.tree] at words amplitudes
  simp [DumpGroup.read, toJson, Value.tree, Value.membersTree, Tree.readRecord, Members.fill,
    fields, words, amplitudes, Parts.complete, bind, Except.bind]

namespace Dump

theorem read_written (dump : Dump Float) (small : dump.qubits < UInt64.size)
    (back : ∀ value ∈ dump.floats, ReadsBack value) : Dump.read dump.toJson.tree = .ok dump := by
  obtain ⟨size, same⟩ : ∃ size : UInt64, size.toNat = dump.qubits :=
    ⟨UInt64.ofNat dump.qubits, UInt64.toNat_ofNat_of_lt' small⟩
  have count := read_uint64_written size
  rw [Value.ofUInt64, same] at count
  have groups := read_list_written dump.groups fun group inside =>
    group.read_written fun value part => back value (List.mem_flatMap.2 ⟨group, inside, part⟩)
  simp only [Value.tree] at count groups
  simp [Dump.read, toJson, Value.tree, Value.membersTree, Tree.readRecord, Members.fill, fields,
    Value.ofNat, count, same, groups, Parts.complete, bind, Except.bind]

end Dump

/-! ### What is read is finite -/

theorem Amplitude.read_yields :
    Yields Amplitude.read fun amplitude => ∀ value ∈ amplitude.floats, value.isFinite = true := by
  intro tree amplitude finite done
  obtain ⟨values, here, done⟩ := except_bind_eq_ok done
  have bounded := read_tuple_yields 2 tree values finite here
  split at done
  · obtain rfl := Except.ok.inj done
    exact bounded
  · exact absurd done (by simp)

def DumpGroup.Parts.IsFinite (parts : Parts) : Prop :=
  ∀ amplitudes ∈ parts.amplitudes, ∀ amplitude ∈ amplitudes,
    ∀ value ∈ amplitude.floats, value.isFinite = true

theorem DumpGroup.read_yields :
    Yields DumpGroup.read fun group => ∀ value ∈ group.floats, value.isFinite = true := by
  have pattern : (fields.get ⟨0, by decide⟩).Keeps Parts.IsFinite := by
    intro tree before after finite held done
    obtain ⟨words, _, done⟩ := except_bind_eq_ok done
    obtain rfl := Except.ok.inj done
    exact held
  have amplitudes : (fields.get ⟨1, by decide⟩).Keeps Parts.IsFinite := by
    intro tree before after finite held done
    obtain ⟨values, read, done⟩ := except_bind_eq_ok done
    obtain rfl := Except.ok.inj done
    intro amplitudes same
    obtain rfl := Option.some.inj same
    exact Amplitude.read_yields.list tree values finite read
  have kept : ∀ field ∈ fields, field.Keeps Parts.IsFinite :=
    List.forall_mem_cons.2 ⟨pattern, List.forall_mem_singleton.2 amplitudes⟩
  refine read_record_yields kept (fun _ none => absurd none (by simp)) ?_
  intro parts group held completed value inside
  simp only [Parts.complete, Option.bind_eq_bind, Option.bind_eq_some_iff] at completed
  obtain ⟨words, _, collected, same, completed⟩ := completed
  obtain rfl := Option.some.inj completed
  obtain ⟨amplitude, known, part⟩ := List.mem_flatMap.1 inside
  exact held collected same amplitude known value part

namespace Dump

def Parts.IsFinite (parts : Parts) : Prop :=
  (∀ qubits ∈ parts.qubits, qubits < UInt64.size) ∧
    ∀ groups ∈ parts.groups, ∀ group ∈ groups, ∀ value ∈ group.floats, value.isFinite = true

theorem read_yields :
    Yields Dump.read fun dump =>
      dump.qubits < UInt64.size ∧ ∀ value ∈ dump.floats, value.isFinite = true := by
  have qubits : (fields.get ⟨0, by decide⟩).Keeps Parts.IsFinite := by
    intro tree before after finite held done
    obtain ⟨size, _, done⟩ := except_bind_eq_ok done
    obtain rfl := Except.ok.inj done
    refine ⟨fun qubits same => ?_, held.2⟩
    obtain rfl := Option.some.inj same
    exact size.toNat_lt_size
  have groups : (fields.get ⟨1, by decide⟩).Keeps Parts.IsFinite := by
    intro tree before after finite held done
    obtain ⟨values, read, done⟩ := except_bind_eq_ok done
    obtain rfl := Except.ok.inj done
    refine ⟨held.1, fun groups same => ?_⟩
    obtain rfl := Option.some.inj same
    exact DumpGroup.read_yields.list tree values finite read
  have kept : ∀ field ∈ fields, field.Keeps Parts.IsFinite :=
    List.forall_mem_cons.2 ⟨qubits, List.forall_mem_singleton.2 groups⟩
  refine read_record_yields kept
    ⟨fun _ none => absurd none (by simp), fun _ none => absurd none (by simp)⟩ ?_
  intro parts dump held completed
  simp only [Parts.complete, Option.bind_eq_bind, Option.bind_eq_some_iff] at completed
  obtain ⟨size, sameSize, collected, same, completed⟩ := completed
  obtain rfl := Option.some.inj completed
  refine ⟨held.1 size sameSize, fun value inside => ?_⟩
  obtain ⟨group, known, part⟩ := List.mem_flatMap.1 inside
  exact held.2 collected same group known value part

/-! ### The round trip -/

/-- A dump with finite amplitudes is read back from its snapshot as it is, and so is a dump that has
been read from any text at all. What is left to the notation of floats is that the finite numbers of
the dump are read back one by one. -/
theorem snapshot_read_back (dump : Dump Float)
    (faithful : ∀ value ∈ dump.floats, value.isFinite = true → ReadsBack value) :
    (dump.qubits < UInt64.size → (∀ value ∈ dump.floats, value.isFinite = true) →
      ofSnapshot dump.snapshot = .ok dump) ∧
    ∀ text, ofSnapshot text = .ok dump → ofSnapshot dump.snapshot = .ok dump := by
  have written (small : dump.qubits < UInt64.size)
      (finite : ∀ value ∈ dump.floats, value.isFinite = true) :
      ofSnapshot dump.snapshot = .ok dump := by
    rw [ofSnapshot, snapshot, read_document_compact]
    exact dump.read_written small fun value inside => faithful value inside (finite value inside)
  refine ⟨written, fun text accepted => ?_⟩
  have bounded := read_yields.document accepted
  exact written bounded.1 bounded.2

/-- Several words with bits in the first and last place, both zeros, and numbers whose notation has
a point, an exponent or neither. -/
def spread : Dump Float where
  qubits := 128
  groups :=
    [⟨[0x8000000000000001, 0], [⟨0.5, -0.0⟩, ⟨1e-300, 12345678.0⟩]⟩,
      ⟨[0xFFFFFFFFFFFFFFFF, 0x8000000000000000], [⟨-1e300, 5e-324⟩]⟩, ⟨[], []⟩]

def spreadText : String :=
  "\x7b\"entries\": [[[9223372036854775809, 0], [[5e-1, -0.0], [1e-300, 12345678]]], " ++
  "\x7b\"amplitudes\": [[-1e300, 5e-324]], \"more\": [1e999, null], " ++
  "\"basis\": [18446744073709551615, 9223372036854775808]\x7d, [[], []]], \"num_qubits\": 128\x7d"

theorem spread_read_back :
    (∀ value ∈ spread.floats, value.isFinite = true → ReadsBack value) ∧
      ofSnapshot spread.snapshot = .ok spread ∧ ofSnapshot spreadText = .ok spread := by
  have faithful : ∀ value ∈ spread.floats, value.isFinite = true → ReadsBack value := by
    decide +kernel
  have finite : ∀ value ∈ spread.floats, value.isFinite = true := by decide +kernel
  have written := (spread.snapshot_read_back faithful).1 (by decide) finite
  exact ⟨faithful, written, by decide +kernel⟩

end Dump

end SparseQuantum
