import Disassembly.Proofs.Runs
import Disassembly.Proofs.Targets

/-!
# What a listing is refused for

Reconstruction can fail in three ways, and looks for them one after the other: a jump table that
leaves the image, a transfer in a delay slot, a target that is a delay slot. Jump tables are read in
ascending order of their canonical addresses, so of several that leave the image the lowest is
reported. A table without an end keeps reconstruction from ever returning, unless a lower one has
left the image before (`TablesEnd`). Targets are looked at in the order of the program; pairing keeps
the order of transfers, so the first offender is also the first one of the listing.
-/

namespace Disassembly.Program

open Isa Listing Memory

/-- A configured jump table, known by its canonical address. -/
def IsJumpTable (annotations : Annotations) (seed : UInt32) : Prop :=
  ∃ address ∈ annotations.tables.jumpTables, annotations.space.canonical address = seed

/-- A jump table that leaves the image at a word. -/
structure TableRunsOff (annotations : Annotations) (image : Image) (seed : UInt32) (n : Nat) :
    Prop where
  configured : IsJumpTable annotations seed
  leaves : image.LeavesAt image.space.isExecutable (image.space.canonical seed) n

/-- A jump table that goes on forever. -/
structure TableEndless (annotations : Annotations) (image : Image) (seed : UInt32) : Prop where
  configured : IsJumpTable annotations seed
  endless : ¬image.Halts image.space.isExecutable (image.space.canonical seed)

/-- Reading the jump tables comes to an end: in front of each table without an end, a lower one
leaves the image. -/
def TablesEnd (annotations : Annotations) (image : Image) : Prop :=
  ∀ seed, TableEndless annotations image seed →
    ∃ other n, TableRunsOff annotations image other n ∧ other < seed

/-- An instruction names a delay slot as its target. -/
def EntersSlot (symbols : Symbols) (slots : Std.TreeSet UInt32) (i : Instruction) : Prop :=
  ∃ op named, i.operation = .branch op named ∧ symbols.canonical named ∈ slots

/-! ### Jump tables -/

theorem entriesOf_eq_error_iff {symbols : Symbols} {seed : UInt32} {reason : NoValue} :
    entriesOf symbols seed = .error reason ↔ symbols.image.codeTable seed = .error reason := by
  rw [entriesOf]
  cases symbols.image.codeTable seed <;> simp [bind, Except.bind, pure, Except.pure]

/-- A table that leaves the image is not read. -/
theorem TableRunsOff.entriesOf_eq {annotations : Annotations} {symbols : Symbols} {seed : UInt32}
    {n : Nat} (runsOff : TableRunsOff annotations symbols.image seed n) :
    entriesOf symbols seed = .error (.fault
      (.bounds (Image.cursorAt (symbols.image.space.canonical seed) n) symbols.image.size)) :=
  entriesOf_eq_error_iff.mpr (Image.run_eq_fault_iff.mpr ⟨n, runsOff.leaves, rfl⟩)

theorem TableEndless.entriesOf_eq {annotations : Annotations} {symbols : Symbols} {seed : UInt32}
    (endless : TableEndless annotations symbols.image seed) :
    entriesOf symbols seed = .error .endless :=
  entriesOf_eq_error_iff.mpr (Image.run_eq_endless_iff.mpr endless.endless)

theorem tableEndless_of_entriesOf {annotations : Annotations} {symbols : Symbols} {seed : UInt32}
    (configured : IsJumpTable annotations seed)
    (failed : entriesOf symbols seed = .error .endless) :
    TableEndless annotations symbols.image seed :=
  ⟨configured, Image.run_eq_endless_iff.mp (entriesOf_eq_error_iff.mp failed)⟩

theorem exists_tableRunsOff_of_fault {annotations : Annotations} {symbols : Symbols}
    {seed : UInt32} (configured : IsJumpTable annotations seed) {fault : Fault}
    (failed : entriesOf symbols seed = .error (.fault fault)) :
    ∃ n, TableRunsOff annotations symbols.image seed n ∧
      fault = .bounds (Image.cursorAt (symbols.image.space.canonical seed) n)
        symbols.image.size := by
  obtain ⟨n, leaves, named⟩ := Image.run_eq_fault_iff.mp (entriesOf_eq_error_iff.mp failed)
  exact ⟨n, ⟨configured, leaves⟩, named⟩

/-- In a small image every table ends. -/
theorem tablesEnd_of_small {image : Image} (small : image.size < 0x80000000)
    (annotations : Annotations) : TablesEnd annotations image :=
  fun _ endless => absurd (Image.halts_of_small small _ _) endless.endless

section Built

variable {annotations : Annotations} {bytes : Array UInt8} {functions : Std.TreeSet UInt32}
  {symbols : Symbols} (built : Symbols.build annotations bytes functions = .ok symbols)

include built

theorem image_of_build : symbols.image = { space := annotations.space, bytes } := by
  rw [Symbols.build_eq_ok built]

theorem mem_jumpTables_of_build (seed : UInt32) :
    seed ∈ symbols.jumpTables.toList ↔ IsJumpTable annotations seed := by
  rw [Symbols.build_eq_ok built, Std.TreeSet.mem_toList]
  exact mem_canonical_seeds

/-- The lowest jump table that is not read decides. -/
theorem allEntries_eq_error_iff {reason : NoValue} :
    allEntries symbols = .error reason ↔
      ∃ seed, IsJumpTable annotations seed ∧ entriesOf symbols seed = .error reason ∧
        ∀ other, IsJumpTable annotations other → other < seed →
          ∃ entries, entriesOf symbols other = .ok entries := by
  have ascending : symbols.jumpTables.toList.Pairwise (· < ·) :=
    Std.TreeSet.ordered_toList.imp Std.compare_eq_lt.mp
  have first : allEntries symbols = .error reason ↔
      symbols.jumpTables.toList.mapM (entriesOf symbols) = .error reason := by
    rw [allEntries]
    cases symbols.jumpTables.toList.mapM (entriesOf symbols) <;>
      simp [bind, Except.bind, pure, Except.pure]
  rw [first, mapM_eq_error_iff]
  constructor
  · rintro ⟨before, seed, after, split, failed, earlier⟩
    have listed : seed ∈ symbols.jumpTables.toList := by simp [split]
    refine ⟨seed, (mem_jumpTables_of_build built seed).mp listed, failed, ?_⟩
    intro other configured below
    have present := (mem_jumpTables_of_build built other).mpr configured
    rw [split, List.mem_append, List.mem_cons] at present
    rw [split, List.pairwise_append, List.pairwise_cons] at ascending
    rcases present with member | rfl | behind
    · exact earlier other member
    · exact absurd below (UInt32.lt_irrefl _)
    · exact absurd (UInt32.lt_trans below (ascending.2.1.1 other behind)) (UInt32.lt_irrefl _)
  · rintro ⟨seed, configured, failed, earlier⟩
    obtain ⟨before, after, split⟩ :=
      List.append_of_mem ((mem_jumpTables_of_build built seed).mpr configured)
    refine ⟨before, seed, after, split, failed, ?_⟩
    intro other member
    have listed : other ∈ symbols.jumpTables.toList := by simp [split, member]
    rw [split, List.pairwise_append] at ascending
    exact earlier other ((mem_jumpTables_of_build built other).mp listed)
      (ascending.2.2 other member seed List.mem_cons_self)

/-- A jump table that is not read prevents the others, but need not be the one that decides. -/
theorem exists_allEntries_eq_error {seed : UInt32} (configured : IsJumpTable annotations seed)
    {reason : NoValue} (failed : entriesOf symbols seed = .error reason) :
    ∃ first, allEntries symbols = .error first := by
  obtain ⟨first, failed⟩ := exists_mapM_eq_error_iff.mpr
    ⟨seed, (mem_jumpTables_of_build built seed).mpr configured, reason, failed⟩
  refine ⟨first, ?_⟩
  rw [allEntries, failed]
  rfl

/-- Reading the jump tables goes on forever exactly if it comes to a table without an end. -/
theorem allEntries_eq_endless_iff :
    allEntries symbols = .error .endless ↔ ¬TablesEnd annotations symbols.image := by
  constructor
  · intro failed ends
    obtain ⟨seed, configured, failed, lower⟩ := (allEntries_eq_error_iff built).mp failed
    obtain ⟨other, n, runsOff, below⟩ := ends seed (tableEndless_of_entriesOf configured failed)
    obtain ⟨entries, read⟩ := lower other runsOff.configured below
    cases read.symm.trans runsOff.entriesOf_eq
  · intro forever
    simp only [TablesEnd, not_forall, not_exists, not_and] at forever
    obtain ⟨seed, endless, alone⟩ := forever
    obtain ⟨reason, failed⟩ :=
      exists_allEntries_eq_error built endless.configured endless.entriesOf_eq
    cases reason with
    | endless => exact failed
    | fault fault =>
      -- The table that is reported would be a lower one that leaves the image.
      obtain ⟨other, configured, failed, lower⟩ := (allEntries_eq_error_iff built).mp failed
      obtain ⟨n, runsOff, -⟩ := exists_tableRunsOff_of_fault configured failed
      rcases Nat.lt_trichotomy other.toNat seed.toNat with below | same | above
      · exact absurd (UInt32.lt_iff_toNat_lt.mpr below) (alone other n runsOff)
      · cases UInt32.toNat_inj.mp same
        cases failed.symm.trans endless.entriesOf_eq
      · obtain ⟨entries, read⟩ := lower seed endless.configured (UInt32.lt_iff_toNat_lt.mpr above)
        cases read.symm.trans endless.entriesOf_eq

/-- The table at the lowest address that leaves the image is reported. -/
theorem allEntries_of_first (ends : TablesEnd annotations symbols.image) {seed : UInt32} {n : Nat}
    (runsOff : TableRunsOff annotations symbols.image seed n)
    (first : ∀ other m, TableRunsOff annotations symbols.image other m → seed ≤ other) :
    allEntries symbols = .error (.fault
      (.bounds (Image.cursorAt (symbols.image.space.canonical seed) n) symbols.image.size)) := by
  refine (allEntries_eq_error_iff built).mpr
    ⟨seed, runsOff.configured, runsOff.entriesOf_eq, fun other configured below => ?_⟩
  cases outcome : entriesOf symbols other with
  | ok entries => exact ⟨entries, rfl⟩
  | error reason =>
    -- A table in front of this one would be the lowest, or have one that leaves the image below it.
    cases reason with
    | fault fault =>
      obtain ⟨m, otherRunsOff, -⟩ := exists_tableRunsOff_of_fault configured outcome
      exact absurd below (UInt32.not_lt.mpr (first other m otherRunsOff))
    | endless =>
      obtain ⟨lowest, m, lowestRunsOff, under⟩ :=
        ends other (tableEndless_of_entriesOf configured outcome)
      exact absurd (UInt32.lt_trans under below)
        (UInt32.not_lt.mpr (first lowest m lowestRunsOff))

theorem exists_of_allEntries_fault {fault : Fault}
    (failed : allEntries symbols = .error (.fault fault)) :
    ∃ seed n, TableRunsOff annotations symbols.image seed n ∧
      fault = .bounds (Image.cursorAt (symbols.image.space.canonical seed) n)
        symbols.image.size := by
  obtain ⟨seed, configured, failed, -⟩ := (allEntries_eq_error_iff built).mp failed
  obtain ⟨n, runsOff, named⟩ := exists_tableRunsOff_of_fault configured failed
  exact ⟨seed, n, runsOff, named⟩

theorem not_runsOff_of_allEntries {entries : List (UInt32 × TableEntry)}
    (read : allEntries symbols = .ok entries) (seed : UInt32) (n : Nat) :
    ¬TableRunsOff annotations symbols.image seed n := by
  intro runsOff
  obtain ⟨first, failed⟩ :=
    exists_allEntries_eq_error built runsOff.configured runsOff.entriesOf_eq
  cases read.symm.trans failed

/-- The jump tables are read if none of them leaves the image and none goes on forever. -/
theorem exists_allEntries_eq_ok (ends : TablesEnd annotations symbols.image)
    (readable : ∀ seed n, ¬TableRunsOff annotations symbols.image seed n) :
    ∃ entries, allEntries symbols = .ok entries := by
  cases outcome : allEntries symbols with
  | ok entries => exact ⟨entries, rfl⟩
  | error reason =>
    cases reason with
    | fault fault =>
      obtain ⟨seed, n, runsOff, -⟩ := exists_of_allEntries_fault built outcome
      exact absurd runsOff (readable seed n)
    | endless => exact absurd ends ((allEntries_eq_endless_iff built).mp outcome)

end Built

/-! ### Targets that are delay slots -/

theorem entersSlot_iff {symbols : Symbols} {slots : Std.TreeSet UInt32} {i : Instruction} :
    EntersSlot symbols slots i ↔ ∃ target, target? symbols i = some target ∧ target ∈ slots := by
  simp only [target?_eq_some_iff]
  constructor
  · rintro ⟨op, named, names, slot⟩
    exact ⟨_, ⟨op, named, names, rfl⟩, slot⟩
  · rintro ⟨_, ⟨op, named, names, rfl⟩, slot⟩
    exact ⟨op, named, names, slot⟩

theorem jumpToDelaySlot?_eq_none_iff_not_entersSlot {symbols : Symbols}
    {instructions : List Instruction} {slots : Std.TreeSet UInt32} :
    jumpToDelaySlot? symbols instructions slots = none ↔
      ∀ i ∈ instructions, ¬EntersSlot symbols slots i := by
  rw [jumpToDelaySlot?_eq_none_iff]
  simp only [entersSlot_iff, not_exists, not_and]

theorem jumpToDelaySlot?_of_first {symbols : Symbols} {slots : Std.TreeSet UInt32}
    {before after : List Instruction} {i : Instruction} {op : Branch} {named : UInt32}
    (names : i.operation = .branch op named) (slot : symbols.canonical named ∈ slots)
    (first : ∀ j ∈ before, ¬EntersSlot symbols slots j) :
    jumpToDelaySlot? symbols (before ++ i :: after) slots =
      some (.jumpToDelaySlot i.listedAddress (symbols.canonical named)) := by
  have earlier := jumpToDelaySlot?_eq_none_iff_not_entersSlot.mpr first
  have target : target? symbols i = some (symbols.canonical named) :=
    target?_eq_some_iff.mpr ⟨op, named, names, rfl⟩
  rw [jumpToDelaySlot?] at earlier ⊢
  rw [List.findSome?_append, earlier, Option.none_or, List.findSome?_cons]
  simp only [target, Std.TreeSet.contains_iff_mem.mpr slot, if_true]

/-! ### Reconstruction, failure by failure -/

theorem reconstruct_of_allEntries_error {symbols : Symbols} {reason : NoValue}
    (failed : allEntries symbols = .error reason) (listing : List Instruction) :
    reconstruct symbols listing = .error reason := by
  rw [reconstruct, failed]
  rfl

theorem reconstruct_of_pairing_error {symbols : Symbols} {listing : List Instruction}
    {entries : List (UInt32 × TableEntry)} {fault : Fault} (read : allEntries symbols = .ok entries)
    (failed : Pairing.ofInstructions listing = .error fault) :
    reconstruct symbols listing = .error (.fault fault) := by
  rw [reconstruct, read]
  simp only [failed, Except.mapError, bind, Except.bind]

theorem pairing_fault {listing : List Instruction} {fault : Fault}
    (failed : Pairing.ofInstructions listing = .error fault) :
    ∃ first second, fault = .doubleDelay first second := by
  by_cases clash : ∃ n, ClashAt listing n
  · obtain ⟨n, control, filler, slot, stands, earlier⟩ := Pairing.exists_first_clash clash
    rw [Pairing.ofInstructions_of_clash slot stands earlier] at failed
    cases failed
    exact ⟨_, _, rfl⟩
  · have pairable := (pairable_iff listing).mpr (not_exists.mp clash)
    obtain ⟨p, returned, -⟩ := Pairing.ofInstructions_of_pairable pairable
    rw [returned] at failed
    cases failed

/-- With the jump tables read there are three outcomes, and none of them is about a table. -/
theorem reconstruct_cases {symbols : Symbols} {entries : List (UInt32 × TableEntry)}
    (read : allEntries symbols = .ok entries) (listing : List Instruction) :
    (∃ first second, Pairing.ofInstructions listing = .error (.doubleDelay first second) ∧
      reconstruct symbols listing = .error (.fault (.doubleDelay first second))) ∨
    ∃ paired, Pairing.ofInstructions listing = .ok paired ∧
      ((∃ i ∈ listing, EntersSlot symbols paired.delaySlots i) ∧
        (∃ origin target,
          reconstruct symbols listing = .error (.fault (.jumpToDelaySlot origin target))) ∨
      (∀ i ∈ listing, ¬EntersSlot symbols paired.delaySlots i) ∧
        ∃ program, reconstruct symbols listing = .ok program) := by
  cases pairs : Pairing.ofInstructions listing with
  | error fault =>
    obtain ⟨first, second, rfl⟩ := pairing_fault pairs
    exact .inl ⟨first, second, rfl, reconstruct_of_pairing_error read pairs⟩
  | ok paired =>
    refine .inr ⟨paired, rfl, ?_⟩
    cases jumps : jumpToDelaySlot? symbols listing paired.delaySlots with
    | none =>
      exact .inr ⟨jumpToDelaySlot?_eq_none_iff_not_entersSlot.mp jumps,
        exists_reconstruct_of_jumpToDelaySlot?_eq_none read pairs jumps⟩
    | some fault =>
      have refused := reconstruct_of_jumpToDelaySlot? read pairs jumps
      obtain ⟨i, member, target, names, slot, rfl⟩ := jumpToDelaySlot?_eq_some jumps
      exact .inl ⟨⟨i, member, entersSlot_iff.mpr ⟨target, names, slot⟩⟩, _, _, refused⟩

theorem reconstruct_eq_endless_iff {symbols : Symbols} {listing : List Instruction} :
    reconstruct symbols listing = .error .endless ↔ allEntries symbols = .error .endless := by
  constructor
  · intro forever
    cases outcome : allEntries symbols with
    | error reason =>
      rw [reconstruct_of_allEntries_error outcome] at forever
      rw [Except.error.inj forever]
    | ok entries =>
      rcases reconstruct_cases outcome listing with
        ⟨first, second, -, other⟩ | ⟨paired, -, ⟨-, origin, target, other⟩ | ⟨-, program, other⟩⟩ <;>
      · rw [forever] at other
        cases other
  · intro forever
    exact reconstruct_of_allEntries_error forever listing

theorem reconstruct_eq_bounds_iff {annotations : Annotations} {bytes : Array UInt8}
    {functions : Std.TreeSet UInt32} {symbols : Symbols}
    (built : Symbols.build annotations bytes functions = .ok symbols)
    (ends : TablesEnd annotations symbols.image) (listing : List Instruction) :
    (∃ address length, reconstruct symbols listing = .error (.fault (.bounds address length))) ↔
      ∃ seed n, TableRunsOff annotations symbols.image seed n := by
  cases outcome : allEntries symbols with
  | error reason =>
    cases reason with
    | endless => exact absurd ends ((allEntries_eq_endless_iff built).mp outcome)
    | fault fault =>
      have refused := reconstruct_of_allEntries_error outcome listing
      obtain ⟨seed, n, runsOff, rfl⟩ := exists_of_allEntries_fault built outcome
      exact ⟨fun _ => ⟨seed, n, runsOff⟩, fun _ => ⟨_, _, refused⟩⟩
  | ok entries =>
    constructor
    · rintro ⟨address, length, refused⟩
      rcases reconstruct_cases outcome listing with
        ⟨first, second, -, other⟩ | ⟨paired, -, ⟨-, origin, target, other⟩ | ⟨-, program, other⟩⟩ <;>
      · rw [refused] at other
        cases other
    · rintro ⟨seed, n, runsOff⟩
      exact absurd runsOff (not_runsOff_of_allEntries built outcome seed n)

theorem reconstruct_eq_doubleDelay_iff {symbols : Symbols} {listing : List Instruction}
    {entries : List (UInt32 × TableEntry)} (read : allEntries symbols = .ok entries) :
    (∃ first second, reconstruct symbols listing = .error (.fault (.doubleDelay first second))) ↔
      ∃ fault, Pairing.ofInstructions listing = .error fault := by
  constructor
  · rintro ⟨first, second, refused⟩
    rcases reconstruct_cases read listing with
      ⟨control, filler, failed, -⟩ | ⟨paired, -, ⟨-, origin, target, other⟩ | ⟨-, program, other⟩⟩
    · exact ⟨_, failed⟩
    · rw [refused] at other
      cases other
    · rw [refused] at other
      cases other
  · rintro ⟨fault, failed⟩
    obtain ⟨first, second, rfl⟩ := pairing_fault failed
    exact ⟨first, second, reconstruct_of_pairing_error read failed⟩

theorem reconstruct_eq_jumpToDelaySlot_iff {symbols : Symbols} {listing : List Instruction}
    {entries : List (UInt32 × TableEntry)} {paired : Pairing}
    (read : allEntries symbols = .ok entries)
    (pairs : Pairing.ofInstructions listing = .ok paired) :
    (∃ origin target,
      reconstruct symbols listing = .error (.fault (.jumpToDelaySlot origin target))) ↔
      ∃ i ∈ listing, EntersSlot symbols paired.delaySlots i := by
  rcases reconstruct_cases read listing with
    ⟨first, second, failed, -⟩ | ⟨again, returned, outcome⟩
  · rw [pairs] at failed
    cases failed
  · rw [pairs] at returned
    cases returned
    rcases outcome with ⟨enters, refused⟩ | ⟨clear, program, made⟩
    · exact ⟨fun _ => enters, fun _ => refused⟩
    · constructor
      · rintro ⟨origin, target, refused⟩
        rw [made] at refused
        cases refused
      · rintro ⟨i, member, enters⟩
        exact absurd enters (clear i member)

/-- Reconstruction does not return exactly if it comes to a jump table without an end, which takes an
image of half the address space. Otherwise it reports the lowest jump table that leaves the image if
there is one. If not, it reports what pairing reports, if that fails. If not, it reports the first
instruction of the listing that names a delay slot as its target. If there is none, it succeeds. -/
theorem reconstruct_refusals_exact (annotations : Annotations) (bytes : Array UInt8)
    (functions : Std.TreeSet UInt32) (symbols : Symbols) (listing : List Instruction)
    (built : Symbols.build annotations bytes functions = .ok symbols) :
    let image : Image := { space := annotations.space, bytes }
    (reconstruct symbols listing = .error .endless ↔ ¬TablesEnd annotations image) ∧
    (image.size < 0x80000000 → TablesEnd annotations image) ∧
    (TablesEnd annotations image →
      ((∃ address length, reconstruct symbols listing = .error (.fault (.bounds address length))) ↔
        ∃ seed n, TableRunsOff annotations image seed n) ∧
      (∀ seed n, TableRunsOff annotations image seed n →
        (∀ other m, TableRunsOff annotations image other m → seed ≤ other) →
        reconstruct symbols listing = .error (.fault
          (.bounds (Image.cursorAt (image.space.canonical seed) n) image.size))) ∧
      ((∀ seed n, ¬TableRunsOff annotations image seed n) →
        ((∃ first second,
          reconstruct symbols listing = .error (.fault (.doubleDelay first second))) ↔
            ∃ fault, Pairing.ofInstructions listing = .error fault) ∧
        (∀ fault, Pairing.ofInstructions listing = .error fault →
          reconstruct symbols listing = .error (.fault fault)) ∧
        ∀ paired, Pairing.ofInstructions listing = .ok paired →
          ((∃ origin target,
            reconstruct symbols listing = .error (.fault (.jumpToDelaySlot origin target))) ↔
              ∃ i ∈ listing, EntersSlot symbols paired.delaySlots i) ∧
          (∀ before i after op named, listing = before ++ i :: after →
            i.operation = .branch op named → symbols.canonical named ∈ paired.delaySlots →
            (∀ j ∈ before, ¬EntersSlot symbols paired.delaySlots j) →
            reconstruct symbols listing =
              .error (.fault (.jumpToDelaySlot i.listedAddress (symbols.canonical named)))) ∧
          ((∀ i ∈ listing, ¬EntersSlot symbols paired.delaySlots i) →
            ∃ program, reconstruct symbols listing = .ok program))) := by
  intro image
  have same : symbols.image = image := image_of_build built
  rw [← same]
  refine ⟨?_, fun small => tablesEnd_of_small small annotations, fun ends => ?_⟩
  · rw [reconstruct_eq_endless_iff, allEntries_eq_endless_iff built]
  refine ⟨reconstruct_eq_bounds_iff built ends listing, ?_, ?_⟩
  · intro seed n runsOff first
    exact reconstruct_of_allEntries_error (allEntries_of_first built ends runsOff first) listing
  · intro readable
    obtain ⟨entries, read⟩ := exists_allEntries_eq_ok built ends readable
    refine ⟨reconstruct_eq_doubleDelay_iff read, fun fault => reconstruct_of_pairing_error read, ?_⟩
    intro paired pairs
    refine ⟨reconstruct_eq_jumpToDelaySlot_iff read pairs, ?_, ?_⟩
    · rintro before i after op named rfl names slot first
      exact reconstruct_of_jumpToDelaySlot? read pairs (jumpToDelaySlot?_of_first names slot first)
    · intro clear
      exact exists_reconstruct_of_jumpToDelaySlot?_eq_none read pairs
        (jumpToDelaySlot?_eq_none_iff_not_entersSlot.mpr clear)

/-- The branch at `8` and the jump at `16` both name delay slots. -/
def enteringListing : List Instruction :=
  [{ address := 0, listedAddress := 0, operation := .branch .jal 8, text := "l.jal 8" },
    { address := 4, listedAddress := 4, operation := .bare .msync, text := "l.msync" },
    { address := 8, listedAddress := 8, operation := .branch .bf 0x1004, text := "l.bf 1004" },
    { address := 12, listedAddress := 12, operation := .bare .nop, text := "l.nop" },
    { address := 16, listedAddress := 16, operation := .branch .j 12, text := "l.j c" },
    { address := 20, listedAddress := 20, operation := .bare .nop, text := "l.nop" }]

/-- The image ends inside the jump tables at `0x10` and at `0x14`. -/
def cutBytes : Array UInt8 :=
  Array.replicate 16 0 ++ #[0, 0, 0, 4, 0, 0, 0x10, 8, 0, 0, 0, 4]

theorem reconstruct_refusals_exact_entering :
    (∃ symbols,
      Symbols.build (mirroredAnnotations.withJumpTables [0x1014, 0x10]) cutBytes {} = .ok symbols ∧
      reconstruct symbols enteringListing = .error (.fault (.bounds 0x1c 28))) ∧
    ∃ symbols, Symbols.build mirroredAnnotations mirroredBytes {} = .ok symbols ∧
      reconstruct symbols enteringListing = .error (.fault (.jumpToDelaySlot 8 4)) := by
  constructor
  · obtain ⟨symbols, built⟩ : ∃ symbols,
      Symbols.build (mirroredAnnotations.withJumpTables [0x1014, 0x10]) cutBytes {} = .ok symbols :=
        ⟨_, rfl⟩
    obtain ⟨-, small, refusals⟩ := reconstruct_refusals_exact _ _ _ symbols enteringListing built
    obtain ⟨-, lowest, -⟩ := refusals (small (by decide))
    refine ⟨symbols, built, lowest 0x10 3 ⟨⟨0x10, by decide, by decide⟩, by decide, ?_, by decide⟩ ?_⟩
    · intro k bound
      match k with
      | 0 | 1 | 2 => decide
      | k + 3 => omega
    · rintro _ _ ⟨⟨address, member, rfl⟩, -⟩
      have either : address = 0x1014 ∨ address = 0x10 := by
        simpa [Annotations.withJumpTables] using member
      rcases either with rfl | rfl <;> decide
  · obtain ⟨symbols, built⟩ : ∃ symbols,
      Symbols.build mirroredAnnotations mirroredBytes {} = .ok symbols := ⟨_, rfl⟩
    have succeeds : (Symbols.build mirroredAnnotations mirroredBytes {} >>= allEntries).isOk =
      true := by decide +kernel
    rw [built] at succeeds
    obtain ⟨entries, read⟩ := exists_of_isOk succeeds
    have readable := not_runsOff_of_allEntries built read
    rw [image_of_build built] at readable
    have pairable : Pairable enteringListing :=
      .pair rfl rfl (.pair rfl rfl (.pair rfl rfl .nil))
    obtain ⟨paired, pairs, -, slots⟩ := Pairing.ofInstructions_of_pairable pairable
    obtain ⟨-, small, refusals⟩ := reconstruct_refusals_exact _ _ _ symbols enteringListing built
    obtain ⟨-, -, later⟩ := refusals (small (by decide))
    obtain ⟨-, -, jumps⟩ := later readable
    obtain ⟨-, first, -⟩ := jumps paired pairs
    have canonical : symbols.canonical = mirroredAnnotations.space.canonical := by
      rw [Symbols.build_eq_ok built]
      rfl
    have slot (address : UInt32) :
        address ∈ paired.delaySlots ↔ address = 4 ∨ address = 12 ∨ address = 20 := by
      rw [slots, enteringListing, Pairing.inSlot_pair rfl rfl, Pairing.inSlot_pair rfl rfl,
        Pairing.inSlot_pair rfl rfl]
      simp [Pairing.InSlot, slotAt?, eq_comm]
    have refused := first (enteringListing.take 2) _ _ .bf 0x1004 rfl rfl
      (by rw [slot, canonical]; decide) ?_
    · rw [canonical] at refused
      exact ⟨symbols, built, refused⟩
    · rintro j member ⟨op, named, names, enters⟩
      rw [slot, canonical] at enters
      simp only [enteringListing, List.take_succ_cons, List.take_zero, List.mem_cons,
        List.not_mem_nil, or_false] at member
      rcases member with rfl | rfl
      · cases names
        revert enters
        decide
      · cases names

/-- Jump tables at `0` and at `1`, in memory that fills half the address space. -/
def overlappingTables : Annotations where
  space := Image.halfSpace .code
  tables := { jumpTables := [0, 1] }

/-- The table at `1` is the lowest that leaves the image, but the one at `0` is read first and has no
end. -/
theorem endless_table_hides_lowest_fault :
    let image : Image := { space := overlappingTables.space, bytes := Array.replicate 0x80000000 0 }
    ∃ symbols, Symbols.build overlappingTables image.bytes {} = .ok symbols ∧
      TableRunsOff overlappingTables image 1 0x1fffffff ∧
      (∀ other n, TableRunsOff overlappingTables image other n → 1 ≤ other) ∧
      reconstruct symbols [] = .error .endless := by
  intro image
  have full : image.bytes.size = 0x80000000 := Array.size_replicate
  have accepted (cursor : UInt32) (_ : image.Readable cursor) :
      image.space.isExecutable (image.wordAt cursor) = true :=
    Image.liesIn_halfSpace rfl _
  have endless : TableEndless overlappingTables image 0 :=
    ⟨⟨0, by decide, by decide⟩, Image.not_halts_halfSpace full accepted⟩
  obtain ⟨symbols, built⟩ : ∃ symbols,
    Symbols.build overlappingTables image.bytes {} = .ok symbols := ⟨_, rfl⟩
  have lowest (other : UInt32) (n : Nat) (runsOff : TableRunsOff overlappingTables image other n) :
      1 ≤ other := by
    -- The table at `0` is entries all the way, so it does not leave the image.
    have apart : other ≠ 0 := by
      rintro rfl
      have stops := (Image.leavesAt_iff.mp runsOff.leaves).1
      exact endless.endless (Image.halts_iff_exists_stopsAt.mpr ⟨n, stops⟩)
    have positive : other.toNat ≠ 0 := fun zero => apart (UInt32.toNat_inj.mp zero)
    exact UInt32.le_iff_toNat_le.mpr (Nat.pos_of_ne_zero positive)
  refine ⟨symbols, built, ⟨⟨1, by decide, by decide⟩, Image.leavesAt_halfSpace full accepted⟩,
    lowest, ?_⟩
  rw [reconstruct_eq_endless_iff, allEntries_eq_endless_iff built, image_of_build built]
  intro ends
  obtain ⟨other, n, runsOff, below⟩ := ends 0 endless
  exact absurd below (UInt32.not_lt_zero)

end Disassembly.Program
