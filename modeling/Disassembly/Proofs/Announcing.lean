import Disassembly.Proofs.Annotation
import Disassembly.Proofs.Naming

/-!
# How often a name is announced

The notes on an address stand in front of the first instruction there, but its configured name
stands in front of each. A transfer and the instruction from its delay slot execute at one address,
so there the name is announced twice. `executedAt` lists what executes at the address of an
instruction; if no address is listed twice, the name is announced that many times
(`map_listedAddress_instructionsAt`), and more than once only where a transfer is overtaken by its
delay slot (`one_lt_length_executedAt_iff`).
-/

namespace Disassembly.Listing

/-- Of an instruction and those that follow it in the listing, the ones that execute at its address,
in their order. -/
def executedAt (i : Instruction) : List Instruction → List Instruction
  | filler :: _ => if i.isControl && !filler.mnemonic.isNop then [filler, i] else [i]
  | [] => [i]

/-- The transfer at an address executes after its delay slot, and the delay slot is no `nop`. -/
def OvertakenAt (listing : List Instruction) (address : UInt32) : Prop :=
  ∃ front control filler rest, listing = front ++ control :: filler :: rest ∧
    control.isControl = true ∧ filler.mnemonic.isNop = false ∧ control.address = address

/-- The instructions of a program at an address. -/
def instructionsAt (address : UInt32) (program : List Instruction) : List Instruction :=
  program.filter (·.address == address)

/-! ### Places outside delay slots -/

theorem endsInControl_cons {i : Instruction} (plain : i.isControl = false)
    (front : List Instruction) : endsInControl (i :: front) = endsInControl front := by
  unfold endsInControl
  rw [List.getLast?_cons]
  cases front.getLast? with
  | none => simp [plain]
  | some last => rfl

theorem endsInControl_cons_cons (i next : Instruction) (front : List Instruction) :
    endsInControl (i :: next :: front) = endsInControl (next :: front) := by
  unfold endsInControl
  rw [List.getLast?_cons_cons]

/-- A program has instructions at the addresses outside delay slots only. -/
theorem Pairable.exists_place {listing : List Instruction} (pairable : Pairable listing)
    (fresh : ∀ i ∈ listing, i.IsFresh) {j : Instruction} (member : j ∈ arranged listing) :
    ∃ front i rest, listing = front ++ i :: rest ∧ endsInControl front = false ∧
      i.address = j.address := by
  induction pairable with
  | nil => cases member
  | @plain i rest done _ ih =>
    rw [arranged_plain done, List.mem_cons] at member
    rcases member with rfl | later
    · exact ⟨[], j, rest, rfl, rfl, rfl⟩
    · obtain ⟨front, l, back, rfl, settled, same⟩ :=
        ih (fun l present => fresh l (List.mem_cons_of_mem _ present)) later
      have plain : i.isControl = false := (fresh i List.mem_cons_self).isUnpaired ▸ done
      exact ⟨i :: front, l, back, rfl, (endsInControl_cons plain front).trans settled, same⟩
  | @pending control _ =>
    cases List.mem_singleton.mp member
    exact ⟨[], j, [], rfl, rfl, rfl⟩
  | @pair control filler rest waits fits _ ih =>
    rw [arranged_pair waits, List.mem_append] at member
    rcases member with pair | later
    · exact ⟨[], control, filler :: rest, rfl, rfl, (address_of_mem_exchanged pair).symm⟩
    · -- The filler is no transfer, so it does not matter what it follows.
      obtain ⟨front, l, back, rfl, settled, same⟩ :=
        ih (fun l present => fresh l (by simp [present])) later
      refine ⟨control :: filler :: front, l, back, rfl, ?_, same⟩
      rw [endsInControl_cons_cons, endsInControl_cons fits, settled]

/-- A transfer never stands in a delay slot. -/
theorem Pairable.endsInControl_before {front rest : List Instruction} {control : Instruction}
    (pairable : Pairable (front ++ control :: rest))
    (fresh : ∀ i ∈ front ++ control :: rest, i.IsFresh) (transfers : control.isControl = true) :
    endsInControl front = false := by
  unfold endsInControl
  cases ends : front.getLast? with
  | none => rfl
  | some last =>
    have present : last ∈ front ++ control :: rest :=
      List.mem_append_left _ (List.mem_of_getLast? ends)
    have idle := pairable.idle_before transfers ends
    rwa [(fresh last present).isUnpaired] at idle

/-! ### What executes at an address -/

theorem instructionsAt_eq_nil {address : UInt32} {program : List Instruction}
    (absent : ∀ i ∈ program, i.address ≠ address) : instructionsAt address program = [] := by
  simpa [instructionsAt, List.filter_eq_nil_iff] using absent

theorem instructionsAt_eq_self {address : UInt32} {program : List Instruction}
    (present : ∀ i ∈ program, i.address = address) : instructionsAt address program = program := by
  simpa [instructionsAt, List.filter_eq_self] using present

theorem instructionsAt_append (address : UInt32) (front back : List Instruction) :
    instructionsAt address (front ++ back) =
      instructionsAt address front ++ instructionsAt address back :=
  List.filter_append ..

theorem instructionsAt_arranged_eq_nil {address : UInt32} {listing : List Instruction}
    (absent : ∀ i ∈ listing, i.address ≠ address) :
    instructionsAt address (arranged listing) = [] := by
  apply instructionsAt_eq_nil
  intro i member
  obtain ⟨j, present, same⟩ := exists_address_of_mem_arranged member
  exact same ▸ absent j present

theorem map_listedAddress_exchanged {control : Instruction} (transfers : control.isControl = true)
    (filler : Instruction) (rest : List Instruction) :
    (exchanged control filler).map (·.listedAddress) =
      (executedAt control (filler :: rest)).map (·.listedAddress) := by
  cases isNop : filler.mnemonic.isNop <;> simp [exchanged, executedAt, isNop, transfers]

theorem executedAt_of_not_isControl {i : Instruction} (plain : i.isControl = false)
    (rest : List Instruction) : executedAt i rest = [i] := by
  cases rest <;> simp [executedAt, plain]

/-- If nothing that follows is listed at the address of the first instruction, the program has at
that address what executes there. -/
theorem map_listedAddress_instructionsAt_cons {i : Instruction} (fresh : i.IsFresh)
    {rest : List Instruction} (apart : ∀ j ∈ rest, j.address ≠ i.address) :
    (instructionsAt i.address (arranged (i :: rest))).map (·.listedAddress) =
      (executedAt i rest).map (·.listedAddress) := by
  cases waits : i.isUnpaired with
  | false =>
    have plain : i.isControl = false := fresh.isUnpaired ▸ waits
    rw [arranged_plain waits, executedAt_of_not_isControl plain, ← List.singleton_append,
      instructionsAt_append, instructionsAt_arranged_eq_nil apart, List.append_nil,
      instructionsAt_eq_self (by simp)]
  | true =>
    cases rest with
    | nil => rw [arranged, instructionsAt_eq_self (by simp), executedAt]
    | cons filler tail =>
      have later (j : Instruction) (member : j ∈ tail) : j.address ≠ i.address :=
        apart j (List.mem_cons_of_mem _ member)
      rw [arranged_pair waits, instructionsAt_append, instructionsAt_arranged_eq_nil later,
        List.append_nil, instructionsAt_eq_self fun j => address_of_mem_exchanged,
        map_listedAddress_exchanged (isControl_of_isUnpaired waits)]

section Distinct

variable {front rest : List Instruction} {i : Instruction}
  (distinct : ((front ++ i :: rest).map (·.address)).Nodup)

include distinct

theorem address_ne_of_mem_front {j : Instruction} (member : j ∈ front) :
    j.address ≠ i.address := by
  rw [List.map_append, List.map_cons, List.nodup_append] at distinct
  exact distinct.2.2 _ (List.mem_map_of_mem member) _ List.mem_cons_self

theorem address_ne_of_mem_rest {j : Instruction} (member : j ∈ rest) : j.address ≠ i.address := by
  rw [List.map_append, List.map_cons, List.nodup_append, List.nodup_cons] at distinct
  intro same
  exact distinct.2.1.1 (List.mem_map.mpr ⟨j, member, same⟩)

/-- At a place that is not behind a transfer, the program has what executes there. -/
theorem map_listedAddress_instructionsAt (fresh : i.IsFresh) (settled : endsInControl front = false) :
    (instructionsAt i.address (arranged (front ++ i :: rest))).map (·.listedAddress) =
      (executedAt i rest).map (·.listedAddress) := by
  -- What stands in front of the place is at other addresses, and so is what follows it.
  have before := instructionsAt_arranged_eq_nil fun j => address_ne_of_mem_front distinct (j := j)
  rw [arranged_append_of_endsInControl settled, instructionsAt_append, before, List.nil_append]
  exact map_listedAddress_instructionsAt_cons fresh fun j => address_ne_of_mem_rest distinct

/-- An address that is listed once is listed at one place. -/
theorem eq_of_address_eq {front' rest' : List Instruction} {j : Instruction}
    (split : front ++ i :: rest = front' ++ j :: rest') (same : j.address = i.address) :
    j = i ∧ rest' = rest := by
  have member : j ∈ front ++ i :: rest := split ▸ by simp
  rcases List.mem_append.mp member with inFront | behind
  · exact absurd same (address_ne_of_mem_front distinct inFront)
  rcases List.mem_cons.mp behind with rfl | later
  · have notBefore : j ∉ front := fun inFront => address_ne_of_mem_front distinct inFront rfl
    have notAfter : j ∉ rest := fun inRest => address_ne_of_mem_rest distinct inRest rfl
    exact ⟨rfl, ((List.append_cons_inj_of_notMem notBefore notAfter).mp split).2.2.symm⟩
  · exact absurd same (address_ne_of_mem_rest distinct later)

theorem one_lt_length_executedAt_iff :
    1 < (executedAt i rest).length ↔ OvertakenAt (front ++ i :: rest) i.address := by
  constructor
  · intro several
    cases rest with
    | nil => simp [executedAt] at several
    | cons filler tail =>
      by_cases overtaken : i.isControl && !filler.mnemonic.isNop
      · simp only [Bool.and_eq_true, Bool.not_eq_true'] at overtaken
        exact ⟨front, i, filler, tail, rfl, overtaken.1, overtaken.2, rfl⟩
      · simp [executedAt, overtaken] at several
  · rintro ⟨front', control, filler, tail, split, transfers, written, same⟩
    obtain ⟨rfl, rfl⟩ := eq_of_address_eq distinct split same
    simp [executedAt, transfers, written]

end Distinct

end Disassembly.Listing

namespace Disassembly.Output.Renderer

open Listing Pseudocode

/-- The name lines of the passages at an address: where the instruction behind each is listed, and
the name. -/
def announcements (r : Renderer) (address : UInt32) : List (UInt32 × String) :=
  ((r.passages .unknown r.program.instructions).filter (·.instruction.address == address)).flatMap
    fun passage =>
      (passage.lines.filterMap Line.configured?).map (passage.instruction.listedAddress, ·)

/-- The name that is announced in front of each instruction at an address. -/
def shownName (r : Renderer) (address : UInt32) : List String :=
  if r.symbols.label address = r.symbols.numericLabel address then []
  else [r.symbols.label address]

theorem filterMap_configured?_lines (r : Renderer) (k : Knowledge) (i : Instruction) :
    (r.lines k i).filterMap Line.configured? = r.shownName i.address := by
  have silent : (if i.opensBlock then r.notes i.address else []).filterMap Line.configured? = [] := by
    rw [List.filterMap_eq_nil_iff]
    intro line member
    split at member
    · exact (labels_of_mem_notes member).1
    · cases member
  rw [lines, heading, List.filterMap_append, List.filterMap_append, silent, List.nil_append,
    shownName]
  by_cases plain : r.symbols.label i.address = r.symbols.numericLabel i.address
  · simp [plain, body, Line.configured?]
  · simp [plain, body, Line.configured?]

/-- Every instruction at an address is announced by itself. -/
theorem announcements_eq (r : Renderer) (address : UInt32) :
    r.announcements address =
      ((instructionsAt address r.program.instructions).map (·.listedAddress)).flatMap
        fun listed => (r.shownName address).map (listed, ·) := by
  unfold announcements
  -- What is known about the registers changes from passage to passage, the names do not.
  generalize Knowledge.unknown = k
  induction r.program.instructions generalizing k with
  | nil => rfl
  | cons i rest ih =>
    by_cases here : i.address = address
    · have own : instructionsAt address (i :: rest) = i :: instructionsAt address rest :=
        List.filter_cons_of_pos (by simpa using here)
      rw [passages, List.filter_cons_of_pos (by simpa using here), List.flatMap_cons, ih, own,
        filterMap_configured?_lines, here]
      rfl
    · have other : instructionsAt address (i :: rest) = instructionsAt address rest :=
        List.filter_cons_of_neg (by simpa using here)
      rw [passages, List.filter_cons_of_neg (by simpa using here), ih, other]

theorem announcements_eq_nil {r : Renderer} {listing : List Instruction} (pairable : Pairable listing)
    (arrangement : r.program.instructions = arranged listing) (fresh : ∀ i ∈ listing, i.IsFresh)
    {address : UInt32}
    (absent : ∀ front i rest, listing = front ++ i :: rest → endsInControl front = false →
      i.address ≠ address) : r.announcements address = [] := by
  rw [announcements_eq, arrangement, instructionsAt_eq_nil]
  · rfl
  · intro j member same
    obtain ⟨front, i, rest, split, settled, shared⟩ := pairable.exists_place fresh member
    exact absent front i rest split settled (shared.trans same)

theorem announcements_of_split {r : Renderer} {front rest : List Instruction} {i : Instruction}
    (arrangement : r.program.instructions = arranged (front ++ i :: rest))
    (fresh : ∀ j ∈ front ++ i :: rest, j.IsFresh)
    (distinct : ((front ++ i :: rest).map (·.address)).Nodup)
    (settled : endsInControl front = false) :
    r.announcements i.address =
      if r.symbols.label i.address = r.symbols.numericLabel i.address then []
      else (executedAt i rest).map fun j => (j.listedAddress, r.symbols.label i.address) := by
  rw [announcements_eq, arrangement,
    map_listedAddress_instructionsAt distinct (fresh i (by simp)) settled, shownName]
  split
  · simp
  · simp [List.flatMap_map, ← List.map_eq_flatMap]

end Disassembly.Output.Renderer

namespace Disassembly

open Listing Output

/-- If no address is listed twice, the configured name of an address outside delay slots is announced
in front of everything that executes there, and no other name is announced. So an address is
announced once, unless it has a name and the transfer there is overtaken by its delay slot. -/
theorem name_announced_once_unless_overtaken (listing : List Instruction)
    (fresh : ∀ i ∈ listing, i.IsFresh) (distinct : (listing.map (·.address)).Nodup) (r : Renderer)
    (returned : Program.reconstruct r.symbols listing = .ok r.program) :
    (∀ address, (r.announcements address).length ≤ 1 ↔
      (OvertakenAt listing address →
        r.symbols.label address = r.symbols.numericLabel address)) ∧
    (∀ front i rest, listing = front ++ i :: rest → endsInControl front = false →
      r.announcements i.address =
        if r.symbols.label i.address = r.symbols.numericLabel i.address then []
        else (executedAt i rest).map fun j => (j.listedAddress, r.symbols.label i.address)) ∧
    (∀ address,
      (∀ front i rest, listing = front ++ i :: rest → endsInControl front = false →
        i.address ≠ address) →
      r.announcements address = []) ∧
    ∀ sink : Sink, sink.limit = none → ∃ progress, r.run sink = .ok progress ∧
      progress.sink.written = sink.written ++
        bytesOf ((r.passages .unknown r.program.instructions).flatMap Passage.lines) := by
  obtain ⟨pairable, arrangement⟩ := Program.instructions_of_reconstruct returned
  refine ⟨?_, ?_, ?_, ?_⟩
  · intro address
    by_cases place : ∃ front i rest, listing = front ++ i :: rest ∧ endsInControl front = false ∧
        i.address = address
    · obtain ⟨front, i, rest, rfl, settled, rfl⟩ := place
      rw [Renderer.announcements_of_split arrangement fresh distinct settled,
        ← one_lt_length_executedAt_iff distinct]
      split
      · next unnamed => simp [unnamed]
      · next named => simp [named]
    · -- Nothing is announced there, and a transfer would be outside delay slots.
      have absent (front : List Instruction) (i : Instruction) (rest : List Instruction)
          (split : listing = front ++ i :: rest) (settled : endsInControl front = false) :
          i.address ≠ address :=
        fun same => place ⟨front, i, rest, split, settled, same⟩
      rw [Renderer.announcements_eq_nil pairable arrangement fresh absent]
      refine ⟨?_, fun _ => Nat.zero_le 1⟩
      rintro - ⟨front, control, filler, rest, rfl, transfers, -, same⟩
      exact absurd ⟨front, control, _, rfl, pairable.endsInControl_before fresh transfers, same⟩ place
  · rintro front i rest rfl settled
    exact Renderer.announcements_of_split arrangement fresh distinct settled
  · intro address absent
    exact Renderer.announcements_eq_nil pairable arrangement fresh absent
  · intro sink unlimited
    refine ⟨_, Renderer.run_of_unlimited r unlimited, ?_⟩
    rw [Renderer.flatMap_passages]
    exact sink.written_after_piecesOf _

/-- The delay slot of the branch at `8` is a `nop`, and its name is announced once. That of the call
at `0` is not, but the call has no name. -/
theorem name_announced_once_unless_overtaken_nop :
    ∃ r : Renderer,
      Symbols.build (loopAt 8) Program.mirroredBytes {} = .ok r.symbols ∧
      Program.reconstruct r.symbols Program.mirroredListing = .ok r.program ∧
      r.announcements 8 = [(8, "loop")] ∧ OvertakenAt Program.mirroredListing 0 ∧
      (r.announcements 0).length ≤ 1 := by
  obtain ⟨symbols, built⟩ : ∃ symbols,
    Symbols.build (loopAt 8) Program.mirroredBytes {} = .ok symbols := ⟨_, rfl⟩
  have succeeds : (Symbols.build (loopAt 8) Program.mirroredBytes {} >>= fun symbols =>
      Program.reconstruct symbols Program.mirroredListing).isOk = true := by decide +kernel
  rw [built] at succeeds
  obtain ⟨program, returned⟩ := exists_of_isOk succeeds
  change Program.reconstruct symbols Program.mirroredListing = .ok program at returned
  have named : symbols.label 8 = "loop" := by cases built; decide +kernel
  have numbered : symbols.numericLabel 8 = "l_000008" := by cases built; decide +kernel
  have unnamed : symbols.label 0 = symbols.numericLabel 0 := by cases built; decide +kernel
  obtain ⟨once, places, -, -⟩ := name_announced_once_unless_overtaken Program.mirroredListing
    isFresh_of_mem_mirroredListing (by decide) ⟨program, symbols⟩ returned
  refine ⟨⟨program, symbols⟩, built, returned, ?_, ⟨[], _, _, _, rfl, rfl, rfl, rfl⟩,
    (once 0).mpr fun _ => unnamed⟩
  refine (places (Program.mirroredListing.take 2) _ _ rfl rfl).trans ?_
  dsimp only
  rw [named, numbered]
  rfl

/-- If the call at `0` has a name, it is announced in front of the call and in front of its delay
slot. -/
theorem name_of_overtaken_call_announced_twice :
    (∀ i ∈ Program.mirroredListing, i.IsFresh) ∧
    (Program.mirroredListing.map (·.address)).Nodup ∧
    ∃ r : Renderer,
      Symbols.build (loopAt 0) Program.mirroredBytes {} = .ok r.symbols ∧
      Program.reconstruct r.symbols Program.mirroredListing = .ok r.program ∧
      r.announcements 0 = [(4, "loop"), (0, "loop")] ∧
      (r.linesFrom .unknown r.program.instructions).filterMap Line.configured? =
        ["loop", "loop"] := by
  refine ⟨isFresh_of_mem_mirroredListing, by decide, ?_⟩
  obtain ⟨symbols, built⟩ : ∃ symbols,
    Symbols.build (loopAt 0) Program.mirroredBytes {} = .ok symbols := ⟨_, rfl⟩
  have shown : (Symbols.build (loopAt 0) Program.mirroredBytes {} >>= fun symbols => do
      let program ← Program.reconstruct symbols Program.mirroredListing
      let r : Renderer := ⟨program, symbols⟩
      return (r.announcements 0,
        (r.linesFrom .unknown program.instructions).filterMap Line.configured?)).toOption =
      some ([(4, "loop"), (0, "loop")], ["loop", "loop"]) := by
    decide +kernel
  rw [built] at shown
  change (Program.reconstruct symbols Program.mirroredListing >>= _).toOption = _ at shown
  cases outcome : Program.reconstruct symbols Program.mirroredListing with
  | error fault =>
    rw [outcome] at shown
    cases shown
  | ok program =>
    rw [outcome] at shown
    obtain ⟨twice, lines⟩ := Prod.mk.inj (Option.some.inj shown)
    exact ⟨⟨program, symbols⟩, built, outcome, twice, lines⟩

end Disassembly
