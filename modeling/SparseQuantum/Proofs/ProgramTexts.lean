import Mathlib
import SparseQuantum.Proofs.ArrangedPrograms

/-!
# Programs as texts

A program that is written as a text and read again is the same program. It is still the same when
the members of the objects have been rearranged in the text, or the white space between the tokens
has been changed.
-/

namespace SparseQuantum

set_option autoImplicit false

open Json

namespace Program

theorem read_written (program : Program Float)
    (back : ∀ angle ∈ program.angles, ReadsBack angle) :
    Program.read program.toJson.tree = .ok program :=
  program.read_rearranged back program.rearranged_plain

/-- A program with finite angles is read back from its text as it is, whatever its labels, names,
identifiers and constants. What is left to the notation of floats is that the finite angles of the
program are read back one by one. -/
theorem text_read_back (program : Program Float)
    (finite : ∀ angle ∈ program.angles, angle.isFinite = true)
    (faithful : ∀ angle ∈ program.angles, angle.isFinite = true → ReadsBack angle) :
    Program.ofText program.toText = .ok program := by
  rw [ofText, toText, read_document_pretty]
  exact program.read_written fun angle inside => faithful angle inside (finite angle inside)

/-- A program with every kind of statement and ending. Its texts need every kind of escape, its
numbers come from the ends of their ranges, and its angles are written in different notations. -/
def everyKind : Program Float where
  entry := "a \"quoted\" \\ path\n\r\t\x08\x0c\x01"
  blocks :=
    [⟨"a \"quoted\" \\ path\n\r\t\x08\x0c\x01",
      [.alloc ⟨18446744073709551615⟩ true, .alloc ⟨0⟩ false,
        .gate "rotate" [0.5, -0.0, 1e-300, 12345678.0] ⟨0⟩ [⟨18446744073709551615⟩],
        .plugin "über 😀" [⟨0⟩] "\x7b\"args\": []\x7d" true [], .dump [⟨0⟩],
        .constant ⟨7⟩ (-9223372036854775808), .constant ⟨8⟩ 9223372036854775807,
        .move ⟨9⟩ ⟨7⟩, .binary "+" ⟨9⟩ ⟨7⟩ ⟨8⟩, .unary "!" ⟨9⟩ ⟨9⟩,
        .measure [⟨0⟩, ⟨18446744073709551615⟩] ⟨9⟩, .free ⟨0⟩ false],
      .branch ⟨9⟩ "" "end"⟩,
      ⟨"", [], .jump "end"⟩, ⟨"end", [], .stop⟩]

theorem every_kind_read_back :
    (∀ angle ∈ everyKind.angles, angle.isFinite = true) ∧
      (∀ angle ∈ everyKind.angles, angle.isFinite = true → ReadsBack angle) ∧
      Program.ofText everyKind.toText = .ok everyKind := by
  have finite : ∀ angle ∈ everyKind.angles, angle.isFinite = true := by decide +kernel
  have faithful : ∀ angle ∈ everyKind.angles, angle.isFinite = true → ReadsBack angle := by
    decide +kernel
  exact ⟨finite, faithful, everyKind.text_read_back finite faithful⟩

/-! ### Other texts of a program -/

/-- The text writes the program, with the members of its objects in any order, with further members
between them and without defaults, and with white space wherever one likes. -/
def IsWritten (program : Program Float) (text : String) : Prop :=
  ∃ tree, Rearranged program.toJson tree ∧ TokensText tree.tokens text.toList

theorem text_is_written (program : Program Float) : program.IsWritten program.toText :=
  ⟨_, program.rearranged_plain, program.toJson.pretty_spelled⟩

/-- Every text that writes a program with finite angles is read as the program. -/
theorem written_text_read (program : Program Float)
    (finite : ∀ angle ∈ program.angles, angle.isFinite = true)
    (faithful : ∀ angle ∈ program.angles, angle.isFinite = true → ReadsBack angle) {text : String}
    (written : program.IsWritten text) : Program.ofText text = .ok program := by
  obtain ⟨tree, rearranged, tokens⟩ := written
  have whole := rearranged_whole _ _ rearranged
  have read := program.read_rearranged
    (fun angle inside => faithful angle inside (finite angle inside)) rearranged
  rw [ofText, readDocument, Document.of_tokens_text whole tokens]
  show (do
    let program ← Program.read tree
    .ok program) = _
  rw [read]
  rfl

def twoBlocks : Program Float where
  entry := "start"
  blocks :=
    [⟨"start", [.gate "rotate" [0.5] ⟨0⟩ [], .plugin "add" [⟨0⟩] "" false [⟨1⟩]],
      .branch ⟨2⟩ "start" "stop"⟩,
      ⟨"stop", [], .stop⟩]

/-- The two blocks with the members of each object in reverse, so that the kinds come last, after
further members, and without defaults. -/
def reversedBlocks : Value :=
  .object
    [("version", .array [.integer (-1), .text "1.0"]),
      ("blocks", .array
        [.object
          [("end", .object [("branch", .object
              [("note", .null), ("otherwise", .text "stop"), ("then", .text "start"),
                ("register", .integer 2)])]),
            ("statements", .array
              [.object
                [("comment", .object [("kind", .array [.array []])]), ("target", .integer 0),
                  ("args", .array [.real 0.5]), ("name", .text "rotate"), ("kind", .text "gate")],
                .object
                  [("ctrl", .array [.integer 1]), ("qubits", .array [.integer 0]),
                    ("name", .text "add"), ("kind", .text "plugin")]]),
            ("label", .text "start")],
          .object [("end", .text "end"), ("label", .text "stop")]]),
      ("entry", .text "start")]

theorem reversed_is_written : twoBlocks.IsWritten reversedBlocks.compact := by
  have comment : Ways.Fresh (Statement.gate "rotate" [0.5] ⟨0⟩ []).members
      ("comment", (Value.object [("kind", .array [.array []])]).tree) :=
    ⟨by decide, rfl, by decide⟩
  have gate : Statement.Rearranged (Statement.gate "rotate" [0.5] ⟨0⟩ []).toJson _ :=
    .members (.kept rfl (.kept rfl (.kept rfl (.kept rfl (.omitted rfl .nil)))))
      (List.forall_mem_singleton.2 comment) (List.reverse_perm _)
  have plugin : Statement.Rearranged (Statement.plugin "add" [⟨0⟩] "" false [⟨1⟩]).toJson _ :=
    .members (.kept rfl (.kept rfl (.kept rfl (.omitted rfl (.omitted rfl (.kept rfl .nil))))))
      (List.forall_mem_nil _) (List.reverse_perm _)
  have note : Ways.Fresh (Ending.branchMembers ⟨2⟩ "start" "stop") ("note", .null) :=
    ⟨by decide, rfl, by decide⟩
  have branch : PlainRecord (.object (Ending.branchMembers ⟨2⟩ "start" "stop")) _ :=
    .members (.kept rfl (.kept rfl (.kept rfl .nil)))
      (List.forall_mem_singleton.2 note) (List.reverse_perm _)
  have start : Block.Rearranged twoBlocks.blocks[0].toJson _ :=
    .members (.kept rfl (.kept (.items (.cons gate (.cons plugin .nil)))
      (.kept (.branch branch) .nil))) (List.forall_mem_nil _) (List.reverse_perm _)
  have stop : Block.Rearranged twoBlocks.blocks[1].toJson _ :=
    .members (.kept rfl (.omitted rfl (.kept .plain .nil)))
      (List.forall_mem_nil _) (List.reverse_perm _)
  have version : Ways.Fresh [("entry", .text "start"),
      ("blocks", .array (twoBlocks.blocks.map Block.toJson))]
      ("version", (Value.array [.integer (-1), .text "1.0"]).tree) :=
    ⟨by decide, rfl, by decide⟩
  have program : Rearranged twoBlocks.toJson _ :=
    .members (.kept rfl (.kept (.items (.cons start (.cons stop .nil))) .nil))
      (List.forall_mem_singleton.2 version) (List.reverse_perm _)
  exact ⟨_, program, reversedBlocks.compact_spelled⟩

theorem reversed_blocks_read :
    (∀ angle ∈ twoBlocks.angles, angle.isFinite = true) ∧
      (∀ angle ∈ twoBlocks.angles, angle.isFinite = true → ReadsBack angle) ∧
      twoBlocks.IsWritten reversedBlocks.compact ∧
      Program.ofText reversedBlocks.compact = .ok twoBlocks := by
  have finite : ∀ angle ∈ twoBlocks.angles, angle.isFinite = true := by decide +kernel
  have faithful : ∀ angle ∈ twoBlocks.angles, angle.isFinite = true → ReadsBack angle := by
    decide +kernel
  exact ⟨finite, faithful, reversed_is_written,
    twoBlocks.written_text_read finite faithful reversed_is_written⟩

end Program

end SparseQuantum
