import Disassembly.Proofs.Rendering
import Std.Data.TreeSet.Lemmas

/-!
# Blocks are rendered on their own

What is known about the registers is carried from one instruction to the next, so the text of an
instruction may depend on all that stand before it. It does not reach across a `Cut`: behind an
unconditional jump nothing is known, and a block start forgets what was known in front of it. A
program that is cut in two is written like its two parts, the second one by a renderer that has seen
nothing.
-/

namespace Disassembly.Output.Renderer

open Listing Pseudocode

/-- The renderer of other instructions, with the same block starts, references, table entries and
names. -/
def withInstructions (r : Renderer) (instructions : List Instruction) : Renderer :=
  { r with program := { r.program with instructions } }

/-- Places in a program that no knowledge passes. -/
inductive Cut (r : Renderer) : List Instruction → List Instruction → Prop
  | jump {before after : List Instruction} {last : Instruction}
      (leaves : last.mnemonic = .branch .j) : Cut r (before ++ [last]) after
  | entry {before rest : List Instruction} {first : Instruction} (opens : first.opensBlock = true)
      (starts : first.address ∈ r.program.blockStarts) : Cut r before (first :: rest)

/-! ### Knowledge at block starts and behind jumps -/

theorem entry_of_blockStart (r : Renderer) {i : Instruction} (opens : i.opensBlock = true)
    (starts : i.address ∈ r.program.blockStarts) (k : Knowledge) : r.entry k i = .unknown := by
  have start : r.opensBlockStart i = true := by
    rw [opensBlockStart, opens, Bool.true_and]
    exact Std.TreeSet.contains_iff_mem.mpr starts
  rw [entry, if_pos start]

theorem next_of_jump (r : Renderer) {i : Instruction} (leaves : i.mnemonic = .branch .j)
    (k : Knowledge) : r.next k i = .unknown := by
  rw [next, leave, if_pos leaves]

/-- Behind a cut it makes no difference what was known in front of it. -/
theorem Cut.forgets {r : Renderer} {p q : List Instruction} (cut : r.Cut p q) (k : Knowledge) :
    r.linesFrom (r.knowledgeAfter k p) q = r.linesFrom .unknown q ∧
      r.knowledgeAfter (r.knowledgeAfter k p) q = r.knowledgeAfter .unknown q := by
  cases cut with
  | @jump before _ last leaves =>
    -- The jump comes last, so what was known before it does not matter.
    have unknown : r.knowledgeAfter k (before ++ [last]) = .unknown := by
      rw [knowledgeAfter_append]
      exact r.next_of_jump leaves _
    rw [unknown]
    exact ⟨rfl, rfl⟩
  | @entry before rest first opens starts =>
    -- Only the first instruction sees what was known, and it forgets that at once.
    have entered (k : Knowledge) : r.entry k first = .unknown :=
      r.entry_of_blockStart opens starts k
    constructor
    · rw [linesFrom, linesFrom, lines, lines, next, next, entered, entered]
    · rw [knowledgeAfter_cons, knowledgeAfter_cons, next, next, entered, entered]

/-! ### The same tables with other instructions -/

theorem linesFrom_withInstructions (r : Renderer) (k : Knowledge)
    (instructions part : List Instruction) :
    (r.withInstructions instructions).linesFrom k part = r.linesFrom k part := by
  induction part generalizing k with
  | nil => rfl
  | cons i rest ih =>
    -- The lines of `i` and what is known behind it are read off the tables, which are the same.
    rw [linesFrom, linesFrom, ih]
    rfl

/-- What a run of some instructions leaves behind. -/
theorem run_withInstructions (r : Renderer) (instructions : List Instruction) {sink : Sink}
    (unlimited : sink.limit = none) :
    (r.withInstructions instructions).run sink = .ok {
      sink := sink.after (piecesOf (r.linesFrom .unknown instructions))
      knowledge := r.knowledgeAfter .unknown instructions } := by
  rw [run_of_unlimited _ unlimited, writes, linesFrom_withInstructions]
  rfl

/-- Whatever stands in front of a cut, what stands behind it is written as it is written on its own,
and leaves the same knowledge. -/
theorem run_local_behind_cut (r : Renderer) (q : List Instruction) :
    ∃ alone, (r.withInstructions q).run {} = .ok alone ∧
      ∀ p, r.Cut p q → ∀ sink : Sink, sink.limit = none →
        ∃ before whole, (r.withInstructions p).run sink = .ok before ∧
          (r.withInstructions (p ++ q)).run sink = .ok whole ∧
          whole.sink.written = before.sink.written ++ alone.sink.written ∧
          whole.knowledge = alone.knowledge := by
  refine ⟨_, run_withInstructions r q rfl, ?_⟩
  intro p cut sink unlimited
  refine ⟨_, _, run_withInstructions r p unlimited, run_withInstructions r (p ++ q) unlimited, ?_⟩
  obtain ⟨lines, knowledge⟩ := cut.forgets .unknown
  rw [linesFrom_append, knowledgeAfter_append, lines, knowledge]
  simp only [Sink.written_after_piecesOf, bytesOf_append, ByteArray.append_assoc,
    ByteArray.empty_append, and_self]

/-- A block starts at `8`; nothing has a name. -/
def unnamed : Renderer where
  program := {
    instructions := []
    blockStarts := .ofList [(8 : UInt32)]
    references := {}
    tableEntries := {}
    delaySlots := {} }
  symbols := {
    annotations := {}
    image := {}
    functions := {}
    jumpTables := {}
    stringTables := {} }

def settingLink : Instruction where
  address := 4
  listedAddress := 4
  operation := .aluImmediate .addi .link .zero 5
  text := "l.addi r9,r0,5"

def usingLink : Instruction where
  address := 8
  listedAddress := 8
  operation := .aluImmediate .addi .link .link 1
  text := "l.addi r9,r9,1"

/-- The block at `8` uses a register that is known in front of it. -/
theorem run_local_behind_cut_at_entry :
    unnamed.Cut [settingLink] [usingLink] ∧
      ∃ alone before whole,
        (unnamed.withInstructions [usingLink]).run {} = .ok alone ∧
        (unnamed.withInstructions [settingLink]).run {} = .ok before ∧
        (unnamed.withInstructions [settingLink, usingLink]).run {} = .ok whole ∧
        whole.sink.written = before.sink.written ++ alone.sink.written ∧
        whole.knowledge = alone.knowledge := by
  have cut : unnamed.Cut [settingLink] [usingLink] := .entry rfl (by decide)
  obtain ⟨alone, ran, behind⟩ := run_local_behind_cut unnamed [usingLink]
  obtain ⟨before, whole, first, both, text, knowledge⟩ := behind [settingLink] cut {} rfl
  exact ⟨cut, alone, before, whole, ran, first, both, text, knowledge⟩

end Disassembly.Output.Renderer
