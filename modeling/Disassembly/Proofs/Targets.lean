import Disassembly.Proofs.Reconstruction

/-!
# Targets and delay slots

A transfer into a delay slot would enter a pair in its middle, and reconstruction refuses a listing
that has one. It looks at the instructions that name their target, and refuses nothing else once the
jump tables are read and the listing is paired. Blocks also start at functions and where entries of
jump tables lead, so a block start that is a delay slot is one of these.
-/

namespace Disassembly.Program

open Isa Listing

/-! ### Looking for a target that is a delay slot -/

theorem target?_eq_some_iff {symbols : Symbols} {i : Instruction} {target : UInt32} :
    target? symbols i = some target ↔
      ∃ op named, i.operation = .branch op named ∧ symbols.canonical named = target := by
  cases operation : i.operation with
  | branch op named =>
    simp only [target?, Instruction.target?, operation, Operation.target?, Option.map_some,
      Option.some.injEq, Operation.branch.injEq]
    constructor
    · intro leads
      exact ⟨op, named, ⟨rfl, rfl⟩, leads⟩
    · rintro ⟨_, _, ⟨rfl, rfl⟩, leads⟩
      exact leads
  | _ => simp [target?, Instruction.target?, Operation.target?, operation]

theorem target?_of_not_isControl (symbols : Symbols) {i : Instruction}
    (fits : i.isControl = false) : target? symbols i = none :=
  Option.map_eq_none_iff.mp (reference?_of_not_isControl symbols fits)

theorem jumpToDelaySlot?_eq_none_iff {symbols : Symbols} {instructions : List Instruction}
    {slots : Std.TreeSet UInt32} :
    jumpToDelaySlot? symbols instructions slots = none ↔
      ∀ i ∈ instructions, ∀ target, target? symbols i = some target → target ∉ slots := by
  rw [jumpToDelaySlot?, List.findSome?_eq_none_iff]
  constructor
  · intro clear i member target names slot
    have none := clear i member
    rw [names] at none
    simp [Std.TreeSet.contains_iff_mem.mpr slot] at none
  · intro clear i member
    cases names : target? symbols i with
    | none => rfl
    | some target =>
      have outside := clear i member target names
      simp [Std.TreeSet.contains_iff_mem, outside]

theorem jumpToDelaySlot?_eq_some {symbols : Symbols} {instructions : List Instruction}
    {slots : Std.TreeSet UInt32} {fault : Fault}
    (found : jumpToDelaySlot? symbols instructions slots = some fault) :
    ∃ i ∈ instructions, ∃ target, target? symbols i = some target ∧ target ∈ slots ∧
      fault = .jumpToDelaySlot i.listedAddress target := by
  obtain ⟨i, member, found⟩ := List.exists_of_findSome?_eq_some found
  refine ⟨i, member, ?_⟩
  cases names : target? symbols i with
  | none =>
    rw [names] at found
    cases found
  | some target =>
    rw [names] at found
    dsimp only at found
    split at found
    · next slot =>
      cases found
      exact ⟨target, rfl, Std.TreeSet.contains_iff_mem.mp slot, rfl⟩
    · cases found

/-- It makes no difference whether the program or its listing is searched. -/
theorem jumpToDelaySlot?_arranged (symbols : Symbols) {listing : List Instruction}
    (pairable : Pairable listing) (slots : Std.TreeSet UInt32) :
    jumpToDelaySlot? symbols (arranged listing) slots = jumpToDelaySlot? symbols listing slots := by
  simp only [jumpToDelaySlot?, ← List.head?_filterMap]
  rw [pairable.filterMap_arranged ?_ fun _ _ _ => rfl]
  intro i fits
  rw [target?_of_not_isControl symbols fits]

/-! ### What reconstruction makes of it -/

theorem reconstruct_of_jumpToDelaySlot? {symbols : Symbols} {listing : List Instruction}
    {entries : List (UInt32 × TableEntry)} {paired : Pairing} {fault : Fault}
    (read : allEntries symbols = .ok entries)
    (pairs : Pairing.ofInstructions listing = .ok paired)
    (jumps : jumpToDelaySlot? symbols listing paired.delaySlots = some fault) :
    reconstruct symbols listing = .error (.fault fault) := by
  obtain ⟨pairable, arrangement, -⟩ := Pairing.ofInstructions_ok pairs
  rw [← jumpToDelaySlot?_arranged symbols pairable, ← arrangement] at jumps
  simp only [reconstruct, read, pairs, Except.mapError, bind, Except.bind, jumps]
  rfl

theorem exists_reconstruct_of_jumpToDelaySlot?_eq_none {symbols : Symbols}
    {listing : List Instruction} {entries : List (UInt32 × TableEntry)} {paired : Pairing}
    (read : allEntries symbols = .ok entries)
    (pairs : Pairing.ofInstructions listing = .ok paired)
    (clear : jumpToDelaySlot? symbols listing paired.delaySlots = none) :
    ∃ program, reconstruct symbols listing = .ok program := by
  obtain ⟨pairable, arrangement, -⟩ := Pairing.ofInstructions_ok pairs
  rw [← jumpToDelaySlot?_arranged symbols pairable, ← arrangement] at clear
  simp only [reconstruct, read, pairs, Except.mapError, bind, Except.bind, clear]
  exact ⟨_, rfl⟩

theorem jumpToDelaySlot?_of_reconstruct {symbols : Symbols} {listing : List Instruction}
    {program : Program} (returned : reconstruct symbols listing = .ok program) :
    jumpToDelaySlot? symbols listing program.delaySlots = none := by
  obtain ⟨entries, paired, read, pairs, rfl⟩ := reconstruct_eq_ok returned
  cases jumps : jumpToDelaySlot? symbols listing paired.delaySlots with
  | none => rfl
  | some fault =>
    rw [reconstruct_of_jumpToDelaySlot? read pairs jumps] at returned
    cases returned

theorem delaySlots_of_reconstruct {symbols : Symbols} {listing : List Instruction}
    {program : Program} (returned : reconstruct symbols listing = .ok program) (address : UInt32) :
    address ∈ program.delaySlots ↔ Pairing.InSlot listing address := by
  obtain ⟨entries, paired, -, pairs, rfl⟩ := reconstruct_eq_ok returned
  obtain ⟨-, -, slots⟩ := Pairing.ofInstructions_ok pairs
  exact slots address

/-- In a reconstructed program no instruction names a delay slot as its target, and a block start
that is a delay slot is a function or the target of a jump table. When the tables are read and the
listing is paired, only an instruction that names a delay slot prevents a program, and the fault is
about such an instruction. -/
theorem reconstruct_targets_outside_slots (annotations : Annotations) (bytes : Array UInt8)
    (functions : Std.TreeSet UInt32) (symbols : Symbols) (listing : List Instruction)
    (built : Symbols.build annotations bytes functions = .ok symbols) :
    (∀ program, reconstruct symbols listing = .ok program →
      (∀ address, address ∈ program.delaySlots ↔ Pairing.InSlot listing address) ∧
      (∀ i ∈ listing, ∀ op named, i.operation = .branch op named →
        symbols.canonical named ∉ program.delaySlots) ∧
      ∃ cells, CellsOf annotations { space := annotations.space, bytes } cells ∧
        ∀ address ∈ program.blockStarts, address ∈ program.delaySlots →
          address ∈ functions ∨ ∃ cell ∈ cells, symbols.canonical cell.stored = address) ∧
    ∀ entries paired, allEntries symbols = .ok entries →
      Pairing.ofInstructions listing = .ok paired →
      (∃ program, reconstruct symbols listing = .ok program) ∨
      ∃ i ∈ listing, ∃ op named, i.operation = .branch op named ∧
        symbols.canonical named ∈ paired.delaySlots ∧
        reconstruct symbols listing =
          .error (.fault (.jumpToDelaySlot i.listedAddress (symbols.canonical named))) := by
  constructor
  · intro program returned
    have clear := jumpToDelaySlot?_eq_none_iff.mp (jumpToDelaySlot?_of_reconstruct returned)
    have outside (i : Instruction) (member : i ∈ listing) (op : Branch) (named : UInt32)
        (names : i.operation = .branch op named) :
        symbols.canonical named ∉ program.delaySlots :=
      clear i member _ (target?_eq_some_iff.mpr ⟨op, named, names, rfl⟩)
    refine ⟨delaySlots_of_reconstruct returned, outside, ?_⟩
    obtain ⟨cells, contents, indexed⟩ : ∃ cells,
        CellsOf annotations { space := annotations.space, bytes } cells ∧
          Indexed symbols functions listing cells program := by
      rw [Symbols.build_eq_ok built] at returned ⊢
      exact indexed_of_reconstruct returned fun seed => mem_canonical_seeds
    refine ⟨cells, contents, ?_⟩
    intro address starts slot
    -- A block starts for one of three reasons, and the third is a target that an instruction names.
    rcases (indexed.blockStarts address).mp starts with
      function | entry | ⟨i, member, op, named, names, rfl⟩
    · exact .inl function
    · exact .inr entry
    · exact absurd slot (outside i member op named names)
  · intro entries paired read pairs
    cases jumps : jumpToDelaySlot? symbols listing paired.delaySlots with
    | none => exact .inl (exists_reconstruct_of_jumpToDelaySlot?_eq_none read pairs jumps)
    | some fault =>
      have refused := reconstruct_of_jumpToDelaySlot? read pairs jumps
      obtain ⟨i, member, target, leads, slot, rfl⟩ := jumpToDelaySlot?_eq_some jumps
      obtain ⟨op, named, names, rfl⟩ := target?_eq_some_iff.mp leads
      exact .inr ⟨i, member, op, named, names, slot, refused⟩

/-- The delay slot of the branch at `8`. -/
def slottedFunctions : Std.TreeSet UInt32 :=
  .ofList [(12 : UInt32)]

theorem exists_slotted_program :
    ∃ symbols program,
      Symbols.build mirroredAnnotations mirroredBytes slottedFunctions = .ok symbols ∧
      reconstruct symbols mirroredListing = .ok program ∧
      program.blockStarts.toList = [4, 8, 12] ∧ program.delaySlots.toList = [4, 12] := by
  have made : ((Symbols.build mirroredAnnotations mirroredBytes slottedFunctions >>=
      fun symbols => reconstruct symbols mirroredListing).toOption.map fun program =>
        (program.blockStarts.toList, program.delaySlots.toList)) =
      some ([4, 8, 12], [4, 12]) := by decide +kernel
  cases outcome : Symbols.build mirroredAnnotations mirroredBytes slottedFunctions >>=
      fun symbols => reconstruct symbols mirroredListing with
  | error fault =>
    rw [outcome] at made
    cases made
  | ok program =>
    rw [outcome] at made
    obtain ⟨symbols, built, returned⟩ := exists_of_bind_eq_ok outcome
    obtain ⟨blocks, slots⟩ := Prod.mk.inj (Option.some.inj made)
    exact ⟨symbols, program, built, returned, blocks, slots⟩

theorem reconstruct_targets_outside_slots_mirrored :
    ∃ symbols program,
      Symbols.build mirroredAnnotations mirroredBytes slottedFunctions = .ok symbols ∧
      reconstruct symbols mirroredListing = .ok program ∧
      8 ∉ program.delaySlots ∧
      ∃ cells,
        CellsOf mirroredAnnotations { space := mirroredAnnotations.space, bytes := mirroredBytes }
          cells ∧
        ∀ address ∈ program.blockStarts, address ∈ program.delaySlots →
          address ∈ slottedFunctions ∨ ∃ cell ∈ cells, symbols.canonical cell.stored = address := by
  obtain ⟨symbols, program, built, returned, -⟩ := exists_slotted_program
  obtain ⟨-, outside, starts⟩ := (reconstruct_targets_outside_slots mirroredAnnotations
    mirroredBytes slottedFunctions symbols mirroredListing built).1 program returned
  have target := outside _ List.mem_cons_self .jal 0x1008 rfl
  rw [Symbols.build_eq_ok built] at target
  exact ⟨symbols, program, built, returned, target, starts⟩

/-- An entry of the jump table leads to a delay slot and a function starts in one. Nothing is
refused, and blocks start there. -/
theorem reconstruct_starts_blocks_in_slots :
    ∃ symbols program,
      Symbols.build mirroredAnnotations mirroredBytes slottedFunctions = .ok symbols ∧
      reconstruct symbols mirroredListing = .ok program ∧
      (4 ∈ program.blockStarts ∧ 4 ∈ program.delaySlots) ∧
      12 ∈ program.blockStarts ∧ 12 ∈ program.delaySlots := by
  obtain ⟨symbols, program, built, returned, blocks, slots⟩ := exists_slotted_program
  refine ⟨symbols, program, built, returned, ?_⟩
  simp only [← Std.TreeSet.mem_toList, blocks, slots]
  decide

end Disassembly.Program
