import Disassembly.Proofs.Annotation
import Disassembly.Proofs.Placement

/-!
# Which instruction is taken for a delay slot

Pairing sees the instructions of a listing and not its lines. Lines that hold no instruction, or one
outside of executable memory, have been skipped by then, so the instruction behind a transfer is the
one on the next line that was kept, at whatever address. It is the one in the delay slot of the
machine exactly if its address is the next one. Neighbours in a listing are traced back to their
lines (`followedBy_iff`) and forward to the paired transfer in the program (`exists_paired`,
`neighbours_of_paired`).
-/

namespace Disassembly.Listing

open Memory

/-- The instruction of a line: it has the form of one, lies in executable memory and can be
decoded. -/
def kept? (space : AddressSpace) (line : List Char) : Option Instruction := do
  let parsed ← Line.parse? line
  if space.isExecutable (space.canonical parsed.address) then
    (Instruction.decode (space.canonical parsed.address) parsed.mnemonic parsed.operands).toOption
  else none

/-- Two lines of a text hold these instructions, and all lines between them are skipped. -/
def FollowedBy (space : AddressSpace) (text : String) (first second : Instruction) : Prop :=
  ∃ before line skipped next after,
    Text.lines text.toList = before ++ line :: (skipped ++ next :: after) ∧
    instructionOfLine? space line = .ok (some first) ∧
    (∀ other ∈ skipped, instructionOfLine? space other = .ok none) ∧
    instructionOfLine? space next = .ok (some second)

/-! ### Lines -/

/-- Reading a line without a fault gives what the line contributes. -/
theorem kept?_of_instructionOfLine? {space : AddressSpace} {line : List Char}
    {found : Option Instruction} (read : instructionOfLine? space line = .ok found) :
    kept? space line = found := by
  unfold instructionOfLine? at read
  unfold kept?
  cases form : Line.parse? line with
  | none =>
    rw [form] at read
    cases read
    rfl
  | some parsed =>
    simp only [form] at read
    simp only [Option.bind_eq_bind, Option.bind_some]
    split at read
    · next executable =>
      rw [if_pos executable]
      cases decoded : Instruction.decode (space.canonical parsed.address) parsed.mnemonic
          parsed.operands with
      | error fault =>
        rw [decoded] at read
        cases read
      | ok i =>
        rw [decoded] at read
        cases read
        rfl
    · next elsewhere =>
      rw [if_neg elsewhere]
      cases read
      rfl

theorem kept?_eq_some_iff {space : AddressSpace} {line : List Char} {i : Instruction} :
    kept? space line = some i ↔ instructionOfLine? space line = .ok (some i) := by
  constructor
  · intro contributes
    simp only [kept?, Option.bind_eq_bind, Option.bind_eq_some_iff] at contributes
    obtain ⟨parsed, form, decodes⟩ := contributes
    split at decodes
    · next executable =>
      simp only [instructionOfLine?, form, if_pos executable, eq_ok_of_toOption decodes]
      rfl
    · cases decodes
  · exact kept?_of_instructionOfLine?

theorem filterMap_id_eq_of_results {space : AddressSpace} {lines : List (List Char)}
    {found : List (Option Instruction)}
    (results : List.Forall₂ (fun line result => instructionOfLine? space line = .ok result) lines
      found) :
    found.filterMap id = lines.filterMap (kept? space) ∧
      ∀ line ∈ lines, instructionOfLine? space line = .ok (kept? space line) := by
  induction results with
  | nil => exact ⟨rfl, nofun⟩
  | @cons line result rest others here _ ih =>
    have contributes := kept?_of_instructionOfLine? here
    obtain ⟨same, succeed⟩ := ih
    constructor
    · rw [List.filterMap_cons, List.filterMap_cons, contributes, same]
      rfl
    · intro other member
      rcases List.mem_cons.mp member with rfl | among
      · rw [here, contributes]
      · exact succeed other among

/-- A listing that has been read consists of what its lines contribute, and no line failed. -/
theorem parse_eq_filterMap {space : AddressSpace} {text : String} {listing : List Instruction}
    (read : parse space text = .ok listing) :
    listing = (Text.lines text.toList).filterMap (kept? space) ∧
      ∀ line ∈ Text.lines text.toList,
        instructionOfLine? space line = .ok (kept? space line) := by
  obtain ⟨found, results, returned⟩ := exists_of_bind_eq_ok read
  cases returned
  exact filterMap_id_eq_of_results (forall₂_of_mapM_eq_ok results)

/-- Neighbours in a filtered list have only dropped items between them. -/
theorem exists_filterMap_neighbours_iff {α β : Type} {f : α → Option β} {items : List α}
    {first second : β} :
    (∃ front back, items.filterMap f = front ++ first :: second :: back) ↔
      ∃ before a dropped b after, items = before ++ a :: (dropped ++ b :: after) ∧
        f a = some first ∧ (∀ x ∈ dropped, f x = none) ∧ f b = some second := by
  constructor
  · rintro ⟨front, back, split⟩
    obtain ⟨before, rest, rfl, -, split⟩ := List.filterMap_eq_append_iff.mp split
    obtain ⟨earlier, a, behind, rfl, -, found, split⟩ := List.filterMap_eq_cons_iff.mp split
    obtain ⟨dropped, b, after, rfl, silent, next, -⟩ := List.filterMap_eq_cons_iff.mp split
    exact ⟨before ++ earlier, a, dropped, b, after, by simp, found, silent, next⟩
  · rintro ⟨before, a, dropped, b, after, rfl, found, silent, next⟩
    refine ⟨before.filterMap f, after.filterMap f, ?_⟩
    have none : dropped.filterMap f = [] := List.filterMap_eq_nil_iff.mpr silent
    simp [found, next, none]

theorem followedBy_iff {space : AddressSpace} {text : String} {listing : List Instruction}
    (read : parse space text = .ok listing) {first second : Instruction} :
    FollowedBy space text first second ↔
      ∃ front back, listing = front ++ first :: second :: back := by
  obtain ⟨rfl, succeed⟩ := parse_eq_filterMap read
  rw [exists_filterMap_neighbours_iff]
  constructor
  · rintro ⟨before, line, skipped, next, after, split, here, silent, there⟩
    refine ⟨before, line, skipped, next, after, split, kept?_eq_some_iff.mpr here, ?_,
      kept?_eq_some_iff.mpr there⟩
    intro other member
    exact kept?_of_instructionOfLine? (silent other member)
  · rintro ⟨before, line, skipped, next, after, split, here, silent, there⟩
    refine ⟨before, line, skipped, next, after, split, kept?_eq_some_iff.mp here, ?_,
      kept?_eq_some_iff.mp there⟩
    intro other member
    -- A line that contributes nothing was skipped, because no line failed.
    rw [succeed other (by simp [split, member]), silent other member]

/-! ### Neighbours and paired transfers -/

theorem paired_of_mem_exchanged {control filler c : Instruction} {slot : UInt32}
    (fresh : filler.delaySlot = none) (member : c ∈ exchanged control filler)
    (paired : c.delaySlot = some slot) :
    c.listedAddress = control.listedAddress ∧ c.operation = control.operation ∧
      slot = filler.listedAddress := by
  unfold exchanged at member
  split at member
  · cases List.mem_singleton.mp member
    cases paired
    exact ⟨rfl, rfl, rfl⟩
  · rcases List.mem_cons.mp member with rfl | member
    · -- The filler itself is not paired.
      rw [fresh] at paired
      cases paired
    · cases List.mem_singleton.mp member
      cases paired
      exact ⟨rfl, rfl, rfl⟩

theorem exists_paired_mem_exchanged (control filler : Instruction) :
    ∃ c ∈ exchanged control filler, c.listedAddress = control.listedAddress ∧
      c.operation = control.operation ∧ c.delaySlot = some filler.listedAddress := by
  unfold exchanged
  split
  · exact ⟨_, List.mem_singleton_self _, rfl, rfl, rfl⟩
  · exact ⟨_, List.mem_cons_of_mem _ (List.mem_singleton_self _), rfl, rfl, rfl⟩

/-- The delay slot that is recorded in a program is the address of the instruction behind the
transfer. -/
theorem neighbours_of_paired {listing : List Instruction}
    (fresh : ∀ i ∈ listing, i.delaySlot = none) {c : Instruction} (member : c ∈ arranged listing)
    {slot : UInt32} (paired : c.delaySlot = some slot) :
    ∃ front control filler back, listing = front ++ control :: filler :: back ∧
      control.isControl = true ∧ c.listedAddress = control.listedAddress ∧
      c.operation = control.operation ∧ slot = filler.listedAddress := by
  induction listing using arranged.induct with
  | case1 => cases member
  | case2 i =>
    rw [List.mem_singleton.mp member, fresh i List.mem_cons_self] at paired
    cases paired
  | case3 control filler rest waits ih =>
    rw [arranged_pair waits, List.mem_append] at member
    rcases member with here | later
    · exact ⟨[], control, filler, rest, rfl, isControl_of_isUnpaired waits,
        paired_of_mem_exchanged (fresh filler (by simp)) here paired⟩
    · obtain ⟨front, first, second, back, rfl, facts⟩ :=
        ih (fun i among => fresh i (by simp [among])) later
      exact ⟨control :: filler :: front, first, second, back, rfl, facts⟩
  | case4 i next rest done ih =>
    rw [arranged_plain (by simpa using done), List.mem_cons] at member
    rcases member with rfl | later
    · rw [fresh c List.mem_cons_self] at paired
      cases paired
    · obtain ⟨front, first, second, back, split, facts⟩ :=
        ih (fun i among => fresh i (List.mem_cons_of_mem _ among)) later
      exact ⟨i :: front, first, second, back, by rw [split]; rfl, facts⟩

/-- A transfer that an instruction follows is paired with it. -/
theorem Pairable.exists_paired {front back : List Instruction} {control filler : Instruction}
    (pairable : Pairable (front ++ control :: filler :: back))
    (fresh : control.delaySlot = none) (transfers : control.isControl = true) :
    ∃ c ∈ arranged (front ++ control :: filler :: back),
      c.listedAddress = control.listedAddress ∧ c.operation = control.operation ∧
      c.delaySlot = some filler.listedAddress := by
  have waits : control.isUnpaired = true := by simp [Instruction.isUnpaired, transfers, fresh]
  obtain ⟨c, member, facts⟩ := exists_paired_mem_exchanged control filler
  rw [arranged_append fun last ends => pairable.idle_before transfers ends, arranged_pair waits]
  exact ⟨c, by simp [member], facts⟩

namespace Pairing

/-- Every transfer of a program that is paired has recorded the address of the next line that was
kept, and every transfer that such a line follows is paired. So the recorded delay slots are those
of the machine exactly if the next line that is kept behind a transfer is always at the next
address. -/
theorem delaySlot_of_next_kept_line (space : AddressSpace) (text : String)
    (listing : List Instruction) (p : Pairing) (read : parse space text = .ok listing)
    (returned : ofInstructions listing = .ok p) :
    (∀ c ∈ p.program.toList, ∀ slot, c.delaySlot = some slot →
      ∃ control filler, FollowedBy space text control filler ∧ control.isControl = true ∧
        c.listedAddress = control.listedAddress ∧ c.operation = control.operation ∧
        slot = filler.listedAddress) ∧
    (∀ control filler, FollowedBy space text control filler → control.isControl = true →
      ∃ c ∈ p.program.toList, c.listedAddress = control.listedAddress ∧
        c.operation = control.operation ∧ c.delaySlot = some filler.listedAddress) ∧
    ((∀ c ∈ p.program.toList, ∀ slot, c.delaySlot = some slot → slot = c.listedAddress + 4) ↔
      ∀ control filler, FollowedBy space text control filler → control.isControl = true →
        filler.listedAddress = control.listedAddress + 4) := by
  obtain ⟨pairable, program, -⟩ := ofInstructions_ok returned
  have fresh := delaySlot_of_parse read
  rw [program]
  have recorded {c : Instruction} (member : c ∈ arranged listing) {slot : UInt32}
      (paired : c.delaySlot = some slot) : ∃ control filler, FollowedBy space text control filler ∧
        control.isControl = true ∧ c.listedAddress = control.listedAddress ∧
        c.operation = control.operation ∧ slot = filler.listedAddress := by
    obtain ⟨front, control, filler, back, split, facts⟩ := neighbours_of_paired fresh member paired
    exact ⟨control, filler, (followedBy_iff read).mpr ⟨front, back, split⟩, facts⟩
  have taken {control filler : Instruction} (follows : FollowedBy space text control filler)
      (transfers : control.isControl = true) : ∃ c ∈ arranged listing,
        c.listedAddress = control.listedAddress ∧ c.operation = control.operation ∧
        c.delaySlot = some filler.listedAddress := by
    obtain ⟨front, back, rfl⟩ := (followedBy_iff read).mp follows
    exact pairable.exists_paired (fresh control (by simp)) transfers
  refine ⟨fun c member slot => recorded member, fun control filler => taken, ?_, ?_⟩
  · intro exactly control filler follows transfers
    obtain ⟨c, member, address, -, paired⟩ := taken follows transfers
    rw [exactly c member filler.listedAddress paired, address]
  · intro adjacent c member slot paired
    obtain ⟨control, filler, follows, transfers, address, -, rfl⟩ := recorded member paired
    rw [adjacent control filler follows transfers, address]

/-- A word of data behind a jump, and a return at the end of one piece of code with a `nop` at the
start of another. -/
def gappedText : String :=
  "0: 00 00 00 04 l.j 10\n4: 00 00 00 00 .word 0x0\n8: 9c 63 00 01 l.addi r3,r3,1\n" ++
    "c: 44 00 48 00 l.jr r9\n40: 15 00 00 00 l.nop\n"

def gappedListing : List Instruction :=
  [{ address := 0, listedAddress := 0, operation := .branch .j 0x10, text := "l.j 10" },
    { address := 8, listedAddress := 8,
      operation := .aluImmediate .addi .firstArgument .firstArgument 1,
      text := "l.addi r3,r3,1" },
    { address := 12, listedAddress := 12, operation := .registerBranch .jr .link,
      text := "l.jr r9" },
    { address := 64, listedAddress := 64, operation := .bare .nop, text := "l.nop" }]

theorem parse_gappedText : parse delayedAnnotations.space gappedText = .ok gappedListing :=
  eq_ok_of_toOption (by decide +kernel)

theorem delaySlot_of_next_kept_line_gapped :
    ∃ p control filler, parse delayedAnnotations.space gappedText = .ok gappedListing ∧
      ofInstructions gappedListing = .ok p ∧
      FollowedBy delayedAnnotations.space gappedText control filler ∧
      control.listedAddress = 0 ∧ filler.listedAddress = 8 := by
  have pairable : Pairable gappedListing := .pair rfl rfl (.pair rfl rfl .nil)
  obtain ⟨p, returned, program, -⟩ := ofInstructions_of_pairable pairable
  obtain ⟨recorded, -⟩ := delaySlot_of_next_kept_line _ _ _ p parse_gappedText returned
  have found : ∃ c ∈ p.program.toList, c.listedAddress = 0 ∧ c.delaySlot = some 8 := by
    rw [program]
    decide
  obtain ⟨c, member, address, paired⟩ := found
  obtain ⟨control, filler, follows, -, same, -, slot⟩ := recorded c member 8 paired
  exact ⟨p, control, filler, parse_gappedText, returned, follows, same ▸ address, slot.symm⟩

/-- The instruction behind the data is moved in front of the jump, and the `nop` of the other piece
of code is dropped for the return. -/
theorem delay_slots_found_behind_gaps :
    ∃ listing p, parse delayedAnnotations.space gappedText = .ok listing ∧
      ofInstructions listing = .ok p ∧
      p.program.toList.map (fun i => (i.listedAddress, i.address, i.delaySlot)) =
        [(8, 0, none), (0, 0, some 8), (12, 12, some 64)] := by
  have pairable : Pairable gappedListing := .pair rfl rfl (.pair rfl rfl .nil)
  obtain ⟨p, returned, program, -⟩ := ofInstructions_of_pairable pairable
  refine ⟨gappedListing, p, parse_gappedText, returned, ?_⟩
  rw [program]
  decide

end Pairing

end Disassembly.Listing
