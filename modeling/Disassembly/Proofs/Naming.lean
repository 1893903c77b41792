import Disassembly.Proofs.Reconstruction
import Disassembly.Proofs.Rendering

/-!
# The name of a target and the name it is announced by

A transfer shows the label of its target as the listing has it. The instruction it leads to stands
at the canonical form of the target, and is announced and referred to by the label of that form. A
label is looked up at the address as it stands first, so a name that is configured for an address of
the mirrored window is shown by transfers alone. `Symbols.NamedAlike` says that an address has no
such name; the two labels agree exactly then (`label_eq_label_canonical_iff`).

The output is taken apart into passages, one for each instruction. What a passage calls its
instruction is read off its lines.
-/

namespace Disassembly

open Isa Listing Output

/-! ### Labels of an address and of its canonical form -/

namespace Symbols

/-- A name that is configured for the address is the one that its canonical form has anyway. Jump
tables show no configured name. -/
def NamedAlike (symbols : Symbols) (address : UInt32) : Prop :=
  symbols.isJumpTable address = true ∨
    ∀ name, symbols.annotations.labels[address]? = some name →
      name = (symbols.annotations.labels[symbols.canonical address]?).getD
        (symbols.numericLabel address)

section Canonical

variable {symbols : Symbols} {address : UInt32}
  (fixed : symbols.canonical (symbols.canonical address) = symbols.canonical address)

include fixed

theorem isJumpTable_canonical :
    symbols.isJumpTable (symbols.canonical address) = symbols.isJumpTable address := by
  rw [isJumpTable, fixed, isJumpTable]

theorem numericLabel_canonical :
    symbols.numericLabel (symbols.canonical address) = symbols.numericLabel address := by
  unfold numericLabel isFunction isJumpTable
  rw [fixed]

theorem name?_canonical :
    symbols.name? (symbols.canonical address) =
      symbols.annotations.labels[symbols.canonical address]? := by
  rw [name?, fixed]
  cases symbols.annotations.labels[symbols.canonical address]? <;> rfl

theorem label_canonical_of_isJumpTable (table : symbols.isJumpTable address = true) :
    symbols.label (symbols.canonical address) = symbols.numericLabel address := by
  rw [label, isJumpTable_canonical fixed, if_pos table, numericLabel_canonical fixed]

theorem label_canonical_of_not_isJumpTable (other : symbols.isJumpTable address = false) :
    symbols.label (symbols.canonical address) =
      (symbols.annotations.labels[symbols.canonical address]?).getD
        (symbols.numericLabel address) := by
  have no : ¬symbols.isJumpTable address = true := by simp [other]
  rw [label, isJumpTable_canonical fixed, if_neg no, name?_canonical fixed,
    numericLabel_canonical fixed]

theorem label_eq_label_canonical_iff :
    symbols.label address = symbols.label (symbols.canonical address) ↔
      symbols.NamedAlike address := by
  cases table : symbols.isJumpTable address with
  | true =>
    rw [label_canonical_of_isJumpTable fixed table, label, if_pos table]
    exact ⟨fun _ => .inl table, fun _ => rfl⟩
  | false =>
    have no : ¬symbols.isJumpTable address = true := by simp [table]
    rw [label_canonical_of_not_isJumpTable fixed table, label, if_neg no, name?]
    -- The look-up of the address as it stands decides.
    cases own : symbols.annotations.labels[address]? with
    | none => simp [NamedAlike, own]
    | some name => simp [NamedAlike, own, table]

end Canonical

end Symbols

/-! ### Passages -/

namespace Output

/-- The lines of one instruction in an output. -/
structure Passage where
  instruction : Instruction
  lines : List Line

/-- The label on a line that gives the configured name of an address. -/
def Line.configured? : Line → Option String
  | .name label => some label
  | _ => none

/-- The label in front of an instruction. -/
def Line.numeric? : Line → Option String
  | .instruction label _ _ => some label
  | _ => none

/-- What a passage calls its instruction: its configured name, or else its numeric label. -/
def Passage.announced? (passage : Passage) : Option String :=
  passage.lines.findSome? Line.configured? <|> passage.lines.findSome? Line.numeric?

namespace Renderer

/-- The passages of a run of instructions that is reached with `k`. -/
def passages (r : Renderer) (k : Pseudocode.Knowledge) : List Instruction → List Passage
  | [] => []
  | i :: rest => ⟨i, r.lines k i⟩ :: r.passages (r.next k i) rest

theorem flatMap_passages (r : Renderer) (k : Pseudocode.Knowledge) (instructions : List Instruction) :
    (r.passages k instructions).flatMap Passage.lines = r.linesFrom k instructions := by
  induction instructions generalizing k with
  | nil => rfl
  | cons i rest ih => rw [passages, List.flatMap_cons, ih, linesFrom]

theorem map_instruction_passages (r : Renderer) (k : Pseudocode.Knowledge)
    (instructions : List Instruction) :
    (r.passages k instructions).map Passage.instruction = instructions := by
  induction instructions generalizing k with
  | nil => rfl
  | cons i rest ih => rw [passages, List.map_cons, ih]

theorem exists_lines_of_mem_passages {r : Renderer} {k : Pseudocode.Knowledge}
    {instructions : List Instruction} {passage : Passage}
    (member : passage ∈ r.passages k instructions) :
    ∃ known, passage.lines = r.lines known passage.instruction := by
  induction instructions generalizing k with
  | nil => cases member
  | cons i rest ih =>
    rcases List.mem_cons.mp member with rfl | later
    · exact ⟨k, rfl⟩
    · exact ih later

/-- Notes are neither names nor instructions. -/
theorem labels_of_mem_notes {r : Renderer} {address : UInt32} {line : Line}
    (member : line ∈ r.notes address) : line.configured? = none ∧ line.numeric? = none := by
  simp only [notes, List.mem_append, List.mem_map] at member
  rcases member with ((separator | banner) | ⟨found, -, rfl⟩) | ⟨entry, -, rfl⟩
  · split at separator
    · cases List.mem_singleton.mp separator
      exact ⟨rfl, rfl⟩
    · cases separator
  · split at banner
    · cases List.mem_singleton.mp banner
      exact ⟨rfl, rfl⟩
    · cases banner
  · exact ⟨rfl, rfl⟩
  · exact ⟨rfl, rfl⟩

theorem announced?_lines (r : Renderer) (k : Pseudocode.Knowledge) (i : Instruction) :
    Passage.announced? ⟨i, r.lines k i⟩ = some (r.symbols.label i.address) := by
  have silent (line : Line) (member : line ∈ if i.opensBlock then r.notes i.address else []) :
      line.configured? = none ∧ line.numeric? = none := by
    split at member
    · exact labels_of_mem_notes member
    · cases member
  have unnamed := List.findSome?_eq_none_iff.mpr fun line member => (silent line member).1
  have unnumbered := List.findSome?_eq_none_iff.mpr fun line member => (silent line member).2
  simp only [Passage.announced?, lines, heading, List.findSome?_append, unnamed, unnumbered,
    Option.none_or]
  -- The name line is there exactly if the label in front of the instruction is not the name.
  by_cases plain : r.symbols.label i.address = r.symbols.numericLabel i.address
  · simp [plain, body, Line.configured?, Line.numeric?]
  · simp [plain, Line.configured?]

theorem announced?_of_mem_passages {r : Renderer} {k : Pseudocode.Knowledge}
    {instructions : List Instruction} {passage : Passage}
    (member : passage ∈ r.passages k instructions) :
    passage.announced? = some (r.symbols.label passage.instruction.address) := by
  obtain ⟨known, shown⟩ := exists_lines_of_mem_passages member
  rw [← announced?_lines r known, ← shown]

end Renderer

end Output

/-! ### Transfers -/

/-- What pseudo-code says in front of the target of a transfer. -/
def Isa.Branch.phrase : Branch → String
  | .bf => "if (FLAG) goto "
  | .bnf => "if (!FLAG) goto "
  | .j => "goto "
  | .jal => "call "

theorem Output.Renderer.getLast?_of_mem_passages {r : Renderer} {k : Pseudocode.Knowledge}
    {instructions : List Instruction} {passage : Passage}
    (member : passage ∈ r.passages k instructions) {op : Branch} {named : UInt32}
    (transfers : passage.instruction.operation = .branch op named) :
    passage.lines.getLast? = some (.instruction (r.symbols.numericLabel passage.instruction.address)
      (op.phrase ++ r.symbols.label named) passage.instruction.text) := by
  obtain ⟨known, shown⟩ := exists_lines_of_mem_passages member
  rw [shown, lines, List.getLast?_concat, body, transfers]
  cases op <;> rfl

namespace Program

/-- The references to an address, in terms of the program that is written. -/
theorem references_of_reconstruct {symbols : Symbols} {listing : List Instruction}
    {program : Program} (returned : reconstruct symbols listing = .ok program) (target : UInt32) :
    (program.references[target]?).getD [] =
      referencesTo symbols target program.instructions := by
  obtain ⟨pairable, arrangement⟩ := instructions_of_reconstruct returned
  obtain ⟨entries, paired, -, -, rfl⟩ := reconstruct_eq_ok returned
  dsimp only at arrangement ⊢
  -- The index was made from the listing, and pairing moves no transfer to another address.
  rw [Index.getElem?_ofPairs, getD_listed?, arrangement, ← itemsAt_reference?,
    filterMap_reference?_arranged symbols pairable]

end Program

/-- How the passages of an output name the instructions that transfers lead to. -/
structure NamesTargets (symbols : Symbols) (program : Program) (output : List Passage) : Prop where
  /-- A transfer shows a name for its target. An instruction at the canonical form of the target is
  announced by that name exactly if the target has no other name. -/
  transfers : ∀ passage ∈ output, ∀ op named, passage.instruction.operation = .branch op named →
    ∃ name,
      passage.lines.getLast? = some (.instruction
        (symbols.numericLabel passage.instruction.address) (op.phrase ++ name)
        passage.instruction.text) ∧
      (symbols.canonical (symbols.canonical named) = symbols.canonical named →
        ∀ arrival ∈ output, arrival.instruction.address = symbols.canonical named →
          (arrival.announced? = some name ↔ symbols.NamedAlike named))
  /-- A reference calls the transfer that it comes from as the transfer is announced. -/
  references : ∀ target reference, reference ∈ (program.references[target]?).getD [] ↔
    ∃ passage ∈ output, ∃ op named, passage.instruction.operation = .branch op named ∧
      symbols.canonical named = target ∧ reference.isCall = decide (op = .jal) ∧
      passage.announced? = some reference.origin

theorem namesTargets_of_reconstruct {symbols : Symbols} {listing : List Instruction}
    {program : Program} (returned : Program.reconstruct symbols listing = .ok program) :
    NamesTargets symbols program
      (Renderer.passages ⟨program, symbols⟩ .unknown program.instructions) := by
  constructor
  · intro passage member op named transfers
    refine ⟨_, Renderer.getLast?_of_mem_passages member transfers, ?_⟩
    intro fixed arrival present there
    rw [Renderer.announced?_of_mem_passages present, there, Option.some_inj, eq_comm]
    exact Symbols.label_eq_label_canonical_iff fixed
  · intro target reference
    rw [Program.references_of_reconstruct returned, Program.mem_referencesTo]
    constructor
    · rintro ⟨i, member, op, named, transfers, leads, rfl⟩
      -- Every instruction of the program has its passage.
      rw [← Renderer.map_instruction_passages ⟨program, symbols⟩ .unknown program.instructions,
        List.mem_map] at member
      obtain ⟨passage, present, rfl⟩ := member
      exact ⟨passage, present, op, named, transfers, leads, rfl,
        Renderer.announced?_of_mem_passages present⟩
    · rintro ⟨passage, present, op, named, transfers, leads, kind, called⟩
      have member := List.mem_map_of_mem (f := Passage.instruction) present
      rw [Renderer.map_instruction_passages] at member
      rw [Renderer.announced?_of_mem_passages present, Option.some_inj] at called
      refine ⟨passage.instruction, member, op, named, transfers, leads, ?_⟩
      rw [← kind, called]

/-- The labels of an address and of its canonical form agree exactly if no other name is configured
for the address as it stands. In the output of a program, a transfer and the instructions it leads to
agree on their name exactly then, and references use the names that instructions are announced by. -/
theorem names_agree_iff_namedAlike (symbols : Symbols) (listing : List Instruction)
    (program : Program) (returned : Program.reconstruct symbols listing = .ok program) :
    (∀ address, symbols.canonical (symbols.canonical address) = symbols.canonical address →
      (symbols.label address = symbols.label (symbols.canonical address) ↔
        symbols.NamedAlike address)) ∧
    (Renderer.passages ⟨program, symbols⟩ .unknown program.instructions).flatMap Passage.lines =
      Renderer.linesFrom ⟨program, symbols⟩ .unknown program.instructions ∧
    NamesTargets symbols program
      (Renderer.passages ⟨program, symbols⟩ .unknown program.instructions) :=
  ⟨fun _ fixed => Symbols.label_eq_label_canonical_iff fixed, Renderer.flatMap_passages _ _ _,
    namesTargets_of_reconstruct returned⟩

/-- Code that also shows at `0x1000`, with a name for one address. -/
def loopAt (address : UInt32) : Annotations :=
  { Program.mirroredAnnotations with labels := .ofList [(address, "loop")] }

/-- A name for the canonical form of `0x1008` is shown by the call and announced at its target. -/
theorem names_agree_iff_namedAlike_canonical :
    ∃ symbols program,
      Symbols.build (loopAt 8) Program.mirroredBytes {} = .ok symbols ∧
      Program.reconstruct symbols Program.mirroredListing = .ok program ∧
      symbols.label 0x1008 = symbols.label 8 ∧ symbols.label 8 = "loop" ∧
      NamesTargets symbols program
        (Renderer.passages ⟨program, symbols⟩ .unknown program.instructions) := by
  obtain ⟨symbols, built⟩ : ∃ symbols,
    Symbols.build (loopAt 8) Program.mirroredBytes {} = .ok symbols := ⟨_, rfl⟩
  have succeeds : (Symbols.build (loopAt 8) Program.mirroredBytes {} >>= fun symbols =>
      Program.reconstruct symbols Program.mirroredListing).isOk = true := by decide +kernel
  rw [built] at succeeds
  obtain ⟨program, returned⟩ := exists_of_isOk succeeds
  change Program.reconstruct symbols Program.mirroredListing = .ok program at returned
  obtain ⟨agree, -, names⟩ :=
    names_agree_iff_namedAlike symbols Program.mirroredListing program returned
  have absent : (loopAt 8).labels[(0x1008 : UInt32)]? = none := by decide +kernel
  cases built
  refine ⟨_, program, rfl, returned, ?_, by decide +kernel, names⟩
  refine (agree 0x1008 (by decide +kernel)).mpr (.inr ?_)
  intro name configured
  cases absent.symm.trans configured

/-- A name for `0x1008` itself is shown by the call, and its target is announced without it. -/
theorem name_in_window_shown_by_call_alone :
    ∃ symbols program,
      Symbols.build (loopAt 0x1008) Program.mirroredBytes {} = .ok symbols ∧
      Program.reconstruct symbols Program.mirroredListing = .ok program ∧
      symbols.label 0x1008 = "loop" ∧ symbols.label (symbols.canonical 0x1008) = "l_000008" ∧
      (Renderer.passages ⟨program, symbols⟩ .unknown program.instructions).map
          (fun passage => (passage.announced?, passage.lines.getLast?)) =
        [(some "l_000000", some (.instruction "l_000000" "LR = LR + 1" "l.addi r9,r9,1")),
          (some "l_000000", some (.instruction "l_000000" "call loop" "l.jal 1008")),
          (some "l_000008",
            some (.instruction "l_000008" "if (FLAG) goto l_000008" "l.bf 8"))] := by
  obtain ⟨symbols, built⟩ : ∃ symbols,
    Symbols.build (loopAt 0x1008) Program.mirroredBytes {} = .ok symbols := ⟨_, rfl⟩
  have shown : (Symbols.build (loopAt 0x1008) Program.mirroredBytes {} >>= fun symbols => do
      let program ← Program.reconstruct symbols Program.mirroredListing
      return (Renderer.passages ⟨program, symbols⟩ .unknown program.instructions).map
        fun passage => (passage.announced?, passage.lines.getLast?)).toOption =
      some [(some "l_000000", some (.instruction "l_000000" "LR = LR + 1" "l.addi r9,r9,1")),
          (some "l_000000", some (.instruction "l_000000" "call loop" "l.jal 1008")),
          (some "l_000008",
            some (.instruction "l_000008" "if (FLAG) goto l_000008" "l.bf 8"))] := by
    decide +kernel
  rw [built] at shown
  change (Program.reconstruct symbols Program.mirroredListing >>= _).toOption = _ at shown
  cases outcome : Program.reconstruct symbols Program.mirroredListing with
  | error fault =>
    rw [outcome] at shown
    cases shown
  | ok program =>
    rw [outcome] at shown
    cases built
    exact ⟨_, program, rfl, outcome, by decide +kernel, by decide +kernel, Option.some.inj shown⟩

end Disassembly
