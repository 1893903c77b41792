import Disassembly.Proofs.Reconstruction
import Disassembly.Proofs.Rendering

/-!
# Notes are written once

The notes on an address stand in front of the first instruction there. Pairing puts two instructions
at one address, a transfer and the one from its delay slot, and lets only the first of them open a
block. So the instructions that open blocks are, address by address, those of the listing outside
delay slots. For a place in the listing that is not behind a transfer the program falls apart at the
same place (`arranged_append`), and if no address is listed twice, the notes on an address are
written there and nowhere else.
-/

namespace Disassembly.Listing

/-- As it is decoded: nothing is paired yet. -/
structure Instruction.IsFresh (i : Instruction) : Prop where
  opensBlock : i.opensBlock = true
  delaySlot : i.delaySlot = none

/-- The instructions that do not come right after a control transfer; `after` says whether one
stands in front of them. -/
def outsideSlots (after : Bool) : List Instruction → List Instruction
  | [] => []
  | i :: rest => (if after then [] else [i]) ++ outsideSlots i.isControl rest

def endsInControl (listing : List Instruction) : Bool :=
  listing.getLast?.any Instruction.isControl

/-- Of an instruction and those that follow it in the listing, the one that executes first at its
address: a transfer waits for its delay slot, unless that is a `nop`. -/
def executedFirst (i : Instruction) : List Instruction → Instruction
  | filler :: _ => if i.isControl && !filler.mnemonic.isNop then filler else i
  | [] => i

theorem Instruction.IsFresh.isUnpaired {i : Instruction} (fresh : i.IsFresh) :
    i.isUnpaired = i.isControl := by
  simp [Instruction.isUnpaired, fresh.delaySlot]

theorem executedFirst_mem (i : Instruction) (rest : List Instruction) :
    executedFirst i rest ∈ i :: rest := by
  unfold executedFirst
  split
  · split <;> simp
  · simp

/-! ### Which instructions open blocks -/

theorem openers_exchanged {control filler : Instruction} (fresh : control.IsFresh)
    (freshFiller : filler.IsFresh) :
    ((exchanged control filler).filter (·.opensBlock)).map (·.address) = [control.address] := by
  unfold exchanged
  split
  · simp [fresh.opensBlock]
  · simp [freshFiller.opensBlock]

/-- The addresses at which a program opens blocks are those of its listing outside delay slots. -/
theorem Pairable.openers {listing : List Instruction} (pairable : Pairable listing)
    (fresh : ∀ i ∈ listing, i.IsFresh) :
    ((arranged listing).filter (·.opensBlock)).map (·.address) =
      (outsideSlots false listing).map (·.address) := by
  induction pairable with
  | nil => rfl
  | @plain i rest done _ ih =>
    have here := fresh i List.mem_cons_self
    have noControl : i.isControl = false := here.isUnpaired ▸ done
    rw [arranged_plain done, List.filter_cons_of_pos here.opensBlock, List.map_cons,
      ih fun j member => fresh j (List.mem_cons_of_mem _ member), outsideSlots, noControl]
    rfl
  | @pending control _ =>
    have here := fresh control List.mem_cons_self
    simp [arranged, outsideSlots, here.opensBlock]
  | @pair control filler rest waits fits _ ih =>
    -- The pair opens one block, at the transfer. The filler is no transfer, so what follows it is
    -- outside delay slots again.
    have later := ih fun j member => fresh j (by simp [member])
    have pair := openers_exchanged (fresh control (by simp)) (fresh filler (by simp))
    rw [arranged_pair waits, List.filter_append, List.map_append, pair, later, outsideSlots,
      outsideSlots, fits, isControl_of_isUnpaired waits]
    rfl

/-! ### Places at which a program falls apart -/

theorem arranged_append {front : List Instruction}
    (settled : ∀ i, front.getLast? = some i → i.isUnpaired = false) (back : List Instruction) :
    arranged (front ++ back) = arranged front ++ arranged back := by
  induction front using arranged.induct with
  | case1 => rfl
  | case2 i => exact arranged_plain (settled i rfl) back
  | case3 control filler rest waits ih =>
    rw [List.cons_append, List.cons_append, arranged_pair waits, arranged_pair waits,
      List.append_assoc, ih fun i last => settled i (by simp [List.getLast?_cons, last])]
  | case4 i next rest done ih =>
    have paired : i.isUnpaired = false := by simpa using done
    rw [List.cons_append, arranged_plain paired, arranged_plain paired,
      ih fun j last => settled j (by rw [List.getLast?_cons, last]; rfl), List.cons_append]

theorem arranged_append_of_endsInControl {front : List Instruction}
    (settled : endsInControl front = false) (back : List Instruction) :
    arranged (front ++ back) = arranged front ++ arranged back := by
  apply arranged_append
  intro i last
  apply isUnpaired_of_not_isControl
  simpa [endsInControl, last] using settled

theorem address_of_mem_exchanged {control filler i : Instruction}
    (member : i ∈ exchanged control filler) : i.address = control.address := by
  unfold exchanged at member
  split at member
  · simp only [List.mem_singleton] at member
    rw [member]
  · simp only [List.mem_cons, List.not_mem_nil, or_false] at member
    rcases member with rfl | rfl <;> rfl

/-- Pairing brings no new addresses. -/
theorem exists_address_of_mem_arranged {listing : List Instruction} {i : Instruction}
    (member : i ∈ arranged listing) : ∃ j ∈ listing, j.address = i.address := by
  induction listing using arranged.induct with
  | case1 => cases member
  | case2 j => exact ⟨i, member, rfl⟩
  | case3 control filler rest waits ih =>
    rw [arranged_pair waits, List.mem_append] at member
    rcases member with pair | later
    · exact ⟨control, List.mem_cons_self, (address_of_mem_exchanged pair).symm⟩
    · obtain ⟨j, present, same⟩ := ih later
      exact ⟨j, by simp [present], same⟩
  | case4 j next rest done ih =>
    rw [arranged_plain (by simpa using done), List.mem_cons] at member
    rcases member with rfl | later
    · exact ⟨i, List.mem_cons_self, rfl⟩
    · obtain ⟨l, present, same⟩ := ih later
      exact ⟨l, List.mem_cons_of_mem _ present, same⟩

/-- The program of a listing starts with what executes first. All that follows opens no block or
comes from another place of the listing. -/
theorem exists_opener {i : Instruction} (fresh : i.IsFresh) (rest : List Instruction) :
    ∃ slot back,
      arranged (i :: rest) =
        { executedFirst i rest with address := i.address, delaySlot := slot } :: back ∧
      ∀ j ∈ back, j.opensBlock = false ∨ ∃ l ∈ rest, l.address = j.address := by
  cases waits : i.isUnpaired with
  | false =>
    -- Not a transfer: it stands for itself, and all that follows is listed later.
    have noControl : i.isControl = false := fresh.isUnpaired ▸ waits
    have self : executedFirst i rest = i := by
      cases rest <;> simp [executedFirst, noControl]
    rw [self, arranged_plain waits]
    refine ⟨i.delaySlot, arranged rest, rfl, ?_⟩
    intro j member
    exact .inr (exists_address_of_mem_arranged member)
  | true =>
    cases rest with
    | nil => exact ⟨i.delaySlot, [], rfl, nofun⟩
    | cons filler tail =>
      have later (j : Instruction) (member : j ∈ arranged tail) :
          ∃ l ∈ filler :: tail, l.address = j.address := by
        obtain ⟨l, present, same⟩ := exists_address_of_mem_arranged member
        exact ⟨l, List.mem_cons_of_mem _ present, same⟩
      rw [arranged_pair waits]
      cases isNop : filler.mnemonic.isNop with
      | true =>
        -- A `nop` is dropped, and the transfer stays the first at its address.
        refine ⟨some filler.listedAddress, arranged tail, ?_, fun j member => .inr (later j member)⟩
        simp [executedFirst, exchanged, isNop]
      | false =>
        -- The filler takes the address of the transfer, which opens no block any more.
        refine ⟨filler.delaySlot,
          { i with delaySlot := some filler.listedAddress, opensBlock := false } :: arranged tail,
          ?_, ?_⟩
        · simp [executedFirst, exchanged, isNop, isControl_of_isUnpaired waits]
        · intro j member
          rcases List.mem_cons.mp member with rfl | member
          · exact .inl rfl
          · exact .inr (later j member)

end Disassembly.Listing

namespace Disassembly.Output.Renderer

open Listing Pseudocode

/-- The lines of an instruction itself: its configured name, and what it does. -/
def ownLines (r : Renderer) (k : Knowledge) (i : Instruction) : List Line :=
  (if r.symbols.label i.address != r.symbols.numericLabel i.address then
    [.name (r.symbols.label i.address)]
  else []) ++ [r.body k i]

/-- The text of the notes on an address: two empty lines in front of a block, the mark of a function,
a line with all references, and a line for each entry of a jump table. -/
def notesText (r : Renderer) (address : UInt32) : String :=
  (if r.program.isBlockStart address then "\n\n" else "") ++
    (if r.symbols.isFunction address then
      String.ofList (List.replicate 62 '-') ++ "\n\n\n"
    else "") ++
    (match r.program.references[address]? with
    | some found => "// xrefs from:" ++ referencesText found ++ "\n"
    | none => "") ++
    String.join (((r.program.tableEntries[address]?).getD []).map fun entry =>
      entry.table ++ "[" ++ Nat.repr entry.index ++ "]" ++ ":\n")

/-- The text of an instruction itself: its configured name, and what it does. -/
def ownText (r : Renderer) (k : Knowledge) (i : Instruction) : String :=
  (if r.symbols.label i.address != r.symbols.numericLabel i.address then
    r.symbols.label i.address ++ ":\n"
  else "") ++
    instructionText (r.symbols.numericLabel i.address) ((explain k i.operation).1.text r.symbols)
      i.text

/-- What is known behind the notes on an address that is reached with `k`. -/
def knownAt (r : Renderer) (address : UInt32) (k : Knowledge) : Knowledge :=
  if r.program.isBlockStart address then .unknown else k

/-- The notes on an address are written in front of `opener`, and nowhere else. -/
structure NotedOnce (r : Renderer) (address : UInt32) (before : List Instruction)
    (opener : Instruction) (after : List Instruction) : Prop where
  program : r.program.instructions = before ++ opener :: after
  here : opener.address = address
  first : ∀ i ∈ before, i.address ≠ address
  /-- The notes come right before the lines of `opener`; at a block start the registers are
  forgotten there. -/
  noted : ∀ k, r.lines k opener = r.notes address ++ r.ownLines (r.knownAt address k) opener
  /-- Whatever else is at the address has no notes and forgets nothing. -/
  silent : ∀ i ∈ after, i.address = address → ∀ k, r.lines k i = r.ownLines k i ∧ r.entry k i = k

theorem entry_of_opensBlock (r : Renderer) {i : Instruction} (opens : i.opensBlock = true)
    (k : Knowledge) : r.entry k i = r.knownAt i.address k := by
  simp [entry, opensBlockStart, opens, knownAt]

theorem lines_of_opensBlock (r : Renderer) {i : Instruction} (opens : i.opensBlock = true)
    (k : Knowledge) :
    r.lines k i = r.notes i.address ++ r.ownLines (r.knownAt i.address k) i := by
  rw [lines, r.entry_of_opensBlock opens, heading, if_pos opens, ownLines, List.append_assoc]

theorem entry_of_not_opensBlock (r : Renderer) {i : Instruction} (inside : i.opensBlock = false)
    (k : Knowledge) : r.entry k i = k := by
  simp [entry, opensBlockStart, inside]

theorem lines_of_not_opensBlock (r : Renderer) {i : Instruction} (inside : i.opensBlock = false)
    (k : Knowledge) : r.lines k i = r.ownLines k i := by
  rw [lines, r.entry_of_not_opensBlock inside, heading, inside, ownLines]
  rfl

theorem bytesOf_notes (r : Renderer) (address : UInt32) :
    bytesOf (r.notes address) = (r.notesText address).toUTF8 := by
  have separator : String.join ((if r.program.isBlockStart address then [.separator] else []).map
      Line.text) = if r.program.isBlockStart address then "\n\n" else "" := by
    split <;> simp
  have banner : String.join ((if r.symbols.isFunction address then [.banner] else []).map
      Line.text) = if r.symbols.isFunction address then
        String.ofList (List.replicate 62 '-') ++ "\n\n\n" else "" := by
    split <;> simp
  have references (found : Option (List Reference)) :
      String.join ((found.toList.map .references).map Line.text) = match found with
        | some found => "// xrefs from:" ++ referencesText found ++ "\n"
        | none => "" := by
    cases found <;> simp
  have entries (found : List TableEntry) :
      String.join ((found.map .entry).map Line.text) = String.join (found.map fun entry =>
        entry.table ++ "[" ++ Nat.repr entry.index ++ "]" ++ ":\n") := by
    simp only [List.map_map, Function.comp_def, Line.text_entry]
  rw [bytesOf, notes, List.map_append, List.map_append, List.map_append, String.join_append,
    String.join_append, String.join_append, separator, banner, references, entries, notesText]

theorem bytesOf_ownLines (r : Renderer) (k : Knowledge) (i : Instruction) :
    bytesOf (r.ownLines k i) = (r.ownText k i).toUTF8 := by
  unfold ownLines ownText
  split <;> simp [bytesOf, body]

/-- The lines of a program, with those at one address set apart. -/
theorem NotedOnce.linesFrom_eq {r : Renderer} {address : UInt32} {before after : List Instruction}
    {opener : Instruction} (once : r.NotedOnce address before opener after) (k : Knowledge) :
    r.linesFrom k r.program.instructions =
      r.linesFrom k before ++ r.notes address ++
        r.ownLines (r.knownAt address (r.knowledgeAfter k before)) opener ++
          r.linesFrom (r.knowledgeAfter k (before ++ [opener])) after := by
  have later : r.knowledgeAfter k (before ++ [opener]) =
      r.next (r.knowledgeAfter k before) opener :=
    r.knowledgeAfter_append k before [opener]
  rw [once.program, linesFrom_append, linesFrom, once.noted, later]
  simp only [List.append_assoc]

/-- At a place that is not behind a transfer the notes on the address are written once. -/
theorem notedOnce_of_split {r : Renderer} {front rest : List Instruction} {i : Instruction}
    (program : r.program.instructions = arranged (front ++ i :: rest))
    (fresh : ∀ j ∈ front ++ i :: rest, j.IsFresh)
    (distinct : ((front ++ i :: rest).map (·.address)).Nodup)
    (settled : endsInControl front = false) :
    ∃ before opener after, r.NotedOnce i.address before opener after ∧
      ∃ slot, opener = { executedFirst i rest with address := i.address, delaySlot := slot } := by
  obtain ⟨slot, back, start, others⟩ := exists_opener (fresh i (by simp)) rest
  rw [arranged_append_of_endsInControl settled, start] at program
  have opens : (executedFirst i rest).opensBlock = true :=
    (fresh _ (List.mem_append_right _ (executedFirst_mem i rest))).opensBlock
  -- No address is listed twice, so `i` is the only instruction of the listing at its address.
  rw [List.map_append, List.map_cons, List.nodup_append, List.nodup_cons] at distinct
  obtain ⟨-, ⟨apart, -⟩, disjoint⟩ := distinct
  refine ⟨arranged front, _, back, ⟨program, rfl, ?_, r.lines_of_opensBlock opens, ?_⟩, slot, rfl⟩
  · intro j member same
    obtain ⟨l, present, listed⟩ := exists_address_of_mem_arranged member
    exact disjoint _ (List.mem_map_of_mem present) _ List.mem_cons_self (listed.trans same)
  · intro j member same k
    rcases others j member with inside | ⟨l, present, listed⟩
    · exact ⟨r.lines_of_not_opensBlock inside k, r.entry_of_not_opensBlock inside k⟩
    · exact absurd (List.mem_map.mpr ⟨l, present, listed.trans same⟩) apart

end Disassembly.Output.Renderer

namespace Disassembly

open Listing Output

/-- Blocks are opened at the addresses of the listing outside delay slots, in its order. If no
address is listed twice, the notes on such an address are written once: right before the first
instruction there, which is the one from the delay slot if a transfer has one that is written. -/
theorem notes_once_of_reconstruct (listing : List Instruction)
    (fresh : ∀ i ∈ listing, i.IsFresh) :
    (∀ paired, Pairing.ofInstructions listing = .ok paired →
      (paired.program.toList.filter (·.opensBlock)).map (·.address) =
        (outsideSlots false listing).map (·.address)) ∧
    ∀ r : Renderer, Program.reconstruct r.symbols listing = .ok r.program →
      (listing.map (·.address)).Nodup →
      ∀ front i rest, listing = front ++ i :: rest → endsInControl front = false →
        ∃ before opener after,
          r.NotedOnce i.address before opener after ∧
          (∃ slot,
            opener = { executedFirst i rest with address := i.address, delaySlot := slot }) ∧
          ∀ sink : Sink, sink.limit = none → ∃ progress, r.run sink = .ok progress ∧
            progress.sink.written = sink.written ++ (bytesOf (r.linesFrom .unknown before) ++
              (r.notesText i.address).toUTF8 ++
              (r.ownText (r.knownAt i.address (r.knowledgeAfter .unknown before)) opener).toUTF8 ++
              bytesOf (r.linesFrom (r.knowledgeAfter .unknown (before ++ [opener])) after)) := by
  constructor
  · intro paired returned
    obtain ⟨pairable, arrangement, -⟩ := Pairing.ofInstructions_ok returned
    rw [arrangement]
    exact pairable.openers fresh
  · rintro r returned distinct front i rest rfl settled
    obtain ⟨-, arrangement⟩ := Program.instructions_of_reconstruct returned
    obtain ⟨before, opener, after, once, first⟩ :=
      Renderer.notedOnce_of_split arrangement fresh distinct settled
    refine ⟨before, opener, after, once, first, ?_⟩
    intro sink unlimited
    refine ⟨_, Renderer.run_of_unlimited r unlimited, ?_⟩
    change (sink.after (piecesOf _)).written = _
    rw [Sink.written_after_piecesOf, once.linesFrom_eq, bytesOf_append, bytesOf_append,
      bytesOf_append, Renderer.bytesOf_notes, Renderer.bytesOf_ownLines]

theorem isFresh_of_mem_mirroredListing (i : Instruction) (member : i ∈ Program.mirroredListing) :
    i.IsFresh := by
  simp only [Program.mirroredListing, List.mem_cons, List.not_mem_nil, or_false] at member
  rcases member with rfl | rfl | rfl | rfl <;> exact ⟨rfl, rfl⟩

/-- The notes on a function that no instruction refers to. -/
def entryNotes : String :=
  "\n\n" ++ "".pushn '-' 62 ++ "\n\n\n"

/-- The notes on a function that is called, branched to and in a jump table. -/
def calledNotes : String :=
  entryNotes ++ "// xrefs from: call:fn_000000 jump:fn_000008\n" ++ "jt_000010[1]:\n"

def mirroredOutput : String :=
  entryNotes ++
  "fn_000000:   LR = LR + 1".pushn ' ' 79 ++ " // l.addi r9,r9,1\n" ++
  "fn_000000:   call fn_000008".pushn ' ' 76 ++ " // l.jal 1008\n" ++
  calledNotes ++
  "fn_000008:   if (FLAG) goto fn_000008".pushn ' ' 66 ++ " // l.bf 8\n"

/-- The call at `0` has a filler, in front of which the notes on `0` stand, and the delay slot of the
branch at `8` is a `nop`. -/
theorem notes_once_of_reconstruct_delayed :
    ∃ r : Renderer,
      Symbols.build Program.mirroredAnnotations Program.mirroredBytes {0, 8} = .ok r.symbols ∧
      Program.reconstruct r.symbols Program.mirroredListing = .ok r.program ∧
      (∃ before opener after, r.NotedOnce 0 before opener after ∧
        opener.text = "l.addi r9,r9,1" ∧ r.notesText 0 = entryNotes) ∧
      (∃ before opener after, r.NotedOnce 8 before opener after ∧
        opener.text = "l.bf 8" ∧ r.notesText 8 = calledNotes) ∧
      ∃ progress, r.run {} = .ok progress ∧ progress.sink.written = mirroredOutput.toUTF8 := by
  obtain ⟨symbols, built⟩ : ∃ symbols,
    Symbols.build Program.mirroredAnnotations Program.mirroredBytes {0, 8} = .ok symbols :=
      ⟨_, rfl⟩
  -- One evaluation for the notes and for the whole output.
  have shown : (Symbols.build Program.mirroredAnnotations Program.mirroredBytes {0, 8} >>=
      fun symbols => do
        let program ← Program.reconstruct symbols Program.mirroredListing
        let r : Renderer := ⟨program, symbols⟩
        return (r.notesText 0, r.notesText 8,
          String.join ((r.linesFrom .unknown program.instructions).map Line.text))).toOption =
      some (entryNotes, calledNotes, mirroredOutput) := by
    decide +kernel
  rw [built] at shown
  change (Program.reconstruct symbols Program.mirroredListing >>= _).toOption = _ at shown
  cases returned : Program.reconstruct symbols Program.mirroredListing with
  | error reason =>
    rw [returned] at shown
    cases shown
  | ok program =>
    rw [returned] at shown
    obtain ⟨entry, rest⟩ := Prod.mk.inj (Option.some.inj shown)
    obtain ⟨called, output⟩ := Prod.mk.inj rest
    have once := (notes_once_of_reconstruct Program.mirroredListing
      isFresh_of_mem_mirroredListing).2 ⟨program, symbols⟩ returned (by decide)
    obtain ⟨before, opener, after, noted, ⟨slot, first⟩, -⟩ := once [] _ _ rfl rfl
    obtain ⟨before', opener', after', noted', ⟨slot', first'⟩, writes⟩ :=
      once (Program.mirroredListing.take 2) _ _ rfl rfl
    obtain ⟨progress, ran, -⟩ := writes {} rfl
    refine ⟨⟨program, symbols⟩, built, returned,
      ⟨before, opener, after, noted, by rw [first]; rfl, entry⟩,
      ⟨before', opener', after', noted', by rw [first']; rfl, called⟩, progress, ran, ?_⟩
    cases (Renderer.run_of_unlimited ⟨program, symbols⟩ rfl).symm.trans ran
    change (Sink.after {} (piecesOf _)).written = _
    rw [Sink.written_after_piecesOf, bytesOf, output]
    exact ByteArray.empty_append

end Disassembly
