import Disassembly.Program
import Disassembly.Proofs.FailurePropagation
import Disassembly.Proofs.Pairing
import Std.Data.TreeMap.Lemmas
import Std.Data.TreeSet.Lemmas

/-!
# The indexes of a reconstructed program

Reconstruction folds pairs of an address and an item into an index. The list of an address then
holds the items of its pairs in their order (`Index.getElem?_ofPairs`), and the lists together hold
every item once (`Index.flatMap_toList_ofPairs`). The references of a program are those of its
listing, because pairing neither adds nor drops a transfer, and its table entries are those of the
configured tables. Of the configured addresses of tables only their canonical forms matter.
-/

namespace Disassembly

open Isa Listing Memory

/-! ### Indexes -/

/-- The list at an address of an index, which has none for an address without items. -/
def listed? {α : Type} (items : List α) : Option (List α) :=
  if items.isEmpty then none else some items

theorem getD_listed? {α : Type} (items : List α) : (listed? items).getD [] = items := by
  unfold listed?
  split
  · next none => simp [List.isEmpty_iff.mp none]
  · rfl

namespace Index

variable {α : Type}

/-- The items that pairs hold for an address. -/
def itemsAt (pairs : List (UInt32 × α)) (address : UInt32) : List α :=
  (pairs.filter fun pair => pair.1 == address).map Prod.snd

theorem itemsAt_cons_self (address : UInt32) (item : α) (rest : List (UInt32 × α)) :
    itemsAt ((address, item) :: rest) address = item :: itemsAt rest address := by
  simp [itemsAt]

theorem itemsAt_cons_of_ne {address other : UInt32} (apart : other ≠ address) (item : α)
    (rest : List (UInt32 × α)) :
    itemsAt ((other, item) :: rest) address = itemsAt rest address := by
  simp [itemsAt, apart]

theorem getElem?_append (index : Index α) (address other : UInt32) (item : α) :
    (index.append address item)[other]? =
      if address = other then some ((index[address]?).getD [] ++ [item]) else index[other]? := by
  simp only [append, Std.TreeMap.getElem?_insert, Std.compare_eq_iff_eq]

/-- Appending pairs one after the other puts the items of an address behind those it has. -/
theorem getElem?_foldl_append (pairs : List (UInt32 × α)) (index : Index α) (address : UInt32) :
    (pairs.foldl (fun index pair => index.append pair.1 pair.2) index)[address]? =
      if (itemsAt pairs address).isEmpty then index[address]?
      else some ((index[address]?).getD [] ++ itemsAt pairs address) := by
  induction pairs generalizing index with
  | nil => simp [itemsAt]
  | cons pair rest ih =>
    obtain ⟨key, item⟩ := pair
    rw [List.foldl_cons, ih, getElem?_append]
    by_cases same : key = address
    · subst same
      rw [itemsAt_cons_self]
      by_cases last : (itemsAt rest key).isEmpty = true
      · simp [List.isEmpty_iff.mp last]
      · simp [last, List.append_assoc]
    · simp only [itemsAt_cons_of_ne same, if_neg same]

theorem getElem?_ofPairs (pairs : List (UInt32 × α)) (address : UInt32) :
    (ofPairs pairs)[address]? = listed? (itemsAt pairs address) := by
  simp [ofPairs, getElem?_foldl_append, listed?]

/-- Splitting pairs by distinct addresses loses none whose address is among them. -/
theorem flatMap_itemsAt_perm (pairs : List (UInt32 × α)) {addresses : List UInt32}
    (distinct : addresses.Nodup) :
    (addresses.flatMap (itemsAt pairs)).Perm
      ((pairs.filter fun pair => addresses.contains pair.1).map Prod.snd) := by
  induction addresses with
  | nil => simp
  | cons address rest ih =>
    obtain ⟨fresh, distinct⟩ := List.nodup_cons.mp distinct
    -- The pairs at `address` come first, the others are those of `rest`.
    have split := (List.filter_append_perm (fun pair : UInt32 × α => pair.1 == address)
      (pairs.filter fun pair => (address :: rest).contains pair.1)).map Prod.snd
    rw [List.filter_filter, List.filter_filter, List.map_append] at split
    refine List.Perm.trans ?_ split
    rw [List.flatMap_cons]
    refine List.Perm.append (List.Perm.of_eq ?_) ((ih distinct).trans (List.Perm.of_eq ?_))
    · unfold itemsAt
      congr 1
      apply List.filter_congr
      intro pair _
      by_cases same : pair.1 = address <;> simp [same]
    · congr 1
      apply List.filter_congr
      intro pair _
      by_cases same : pair.1 = address
      · simp [same, fresh]
      · simp [same]

/-- The lists of an index together hold every item once. -/
theorem flatMap_toList_ofPairs (pairs : List (UInt32 × α)) :
    ((ofPairs pairs).toList.flatMap Prod.snd).Perm (pairs.map Prod.snd) := by
  have keyed : (ofPairs pairs).toList.flatMap Prod.snd =
      (ofPairs pairs).keys.flatMap (itemsAt pairs) := by
    rw [← Std.TreeMap.map_fst_toList_eq_keys, List.flatMap_map]
    apply List.flatMap_congr
    rintro ⟨address, items⟩ member
    rw [Std.TreeMap.mem_toList_iff_getElem?_eq_some, getElem?_ofPairs, listed?] at member
    split at member
    · cases member
    · exact (Option.some.inj member).symm
  -- Every pair has its address among the keys, so the split leaves none out.
  have distinct : (ofPairs pairs).keys.Nodup :=
    Std.TreeMap.distinct_keys.imp fun apart same => apart (Std.compare_eq_iff_eq.mpr same)
  have covered : (pairs.filter fun pair => (ofPairs pairs).keys.contains pair.1) = pairs := by
    rw [List.filter_eq_self]
    rintro ⟨address, item⟩ member
    rw [List.contains_iff_mem, Std.TreeMap.mem_keys, Std.TreeMap.mem_iff_isSome_getElem?,
      getElem?_ofPairs, listed?]
    have listed : item ∈ itemsAt pairs address := by
      simp only [itemsAt, List.mem_map, List.mem_filter]
      exact ⟨(address, item), ⟨member, by simp⟩, rfl⟩
    rw [if_neg (by simpa using List.ne_nil_of_mem listed)]
    rfl
  rw [keyed]
  have parted := flatMap_itemsAt_perm pairs distinct
  rwa [covered] at parted

end Index

/-! ### Symbols and the addresses of tables -/

/-- Symbols that differ only in how their jump tables are configured. -/
structure SameTables (other symbols : Symbols) : Prop where
  space : other.annotations.space = symbols.annotations.space
  labels : other.annotations.labels = symbols.annotations.labels
  image : other.image = symbols.image
  functions : other.functions = symbols.functions
  jumpTables : ∀ address, address ∈ other.jumpTables ↔ address ∈ symbols.jumpTables

theorem SameTables.canonical {other symbols : Symbols} (same : SameTables other symbols)
    (address : UInt32) :
    other.canonical address = symbols.canonical address := by
  simp only [Symbols.canonical, Symbols.space, same.space]

theorem SameTables.isJumpTable {other symbols : Symbols} (same : SameTables other symbols)
    (address : UInt32) :
    other.isJumpTable address = symbols.isJumpTable address := by
  rw [Symbols.isJumpTable, Symbols.isJumpTable, same.canonical, Bool.eq_iff_iff,
    Std.TreeSet.contains_iff_mem, Std.TreeSet.contains_iff_mem]
  exact same.jumpTables _

theorem SameTables.label {other symbols : Symbols} (same : SameTables other symbols)
    (address : UInt32) :
    other.label address = symbols.label address := by
  have numeric : other.numericLabel address = symbols.numericLabel address := by
    rw [Symbols.numericLabel, Symbols.numericLabel, Symbols.isFunction, Symbols.isFunction,
      same.canonical, same.isJumpTable, same.functions]
  rw [Symbols.label, Symbols.label, Symbols.name?, Symbols.name?, numeric, same.isJumpTable,
    same.canonical, same.labels]

/-- The annotations with other addresses of jump tables. -/
def Annotations.withJumpTables (annotations : Annotations) (seeds : List UInt32) : Annotations :=
  { annotations with tables := { annotations.tables with jumpTables := seeds } }

/-- Symbols can be built whatever the jump tables are. -/
theorem Symbols.build_withJumpTables {annotations : Annotations} {bytes : Array UInt8}
    {functions : Std.TreeSet UInt32} {symbols : Symbols}
    (built : Symbols.build annotations bytes functions = .ok symbols) (seeds : List UInt32) :
    Symbols.build (annotations.withJumpTables seeds) bytes functions = .ok {
      annotations := annotations.withJumpTables seeds
      image := { space := annotations.space, bytes }
      functions
      stringTables := symbols.stringTables
      jumpTables := .ofList (seeds.map annotations.space.canonical) } := by
  obtain ⟨stringTables, read, built⟩ := exists_of_bind_eq_ok built
  cases built
  change (readStringTables { space := annotations.space, bytes }
    annotations.tables.stringTables >>= _) = _
  rw [read]
  rfl

theorem Symbols.build_eq_ok {annotations : Annotations} {bytes : Array UInt8}
    {functions : Std.TreeSet UInt32} {symbols : Symbols}
    (built : Symbols.build annotations bytes functions = .ok symbols) :
    symbols = {
      annotations
      image := { space := annotations.space, bytes }
      functions
      stringTables := symbols.stringTables
      jumpTables := .ofList (annotations.tables.jumpTables.map annotations.space.canonical) } := by
  have again := build_withJumpTables built annotations.tables.jumpTables
  exact Except.ok.inj (built.symm.trans again)

theorem mem_canonical_seeds {space : AddressSpace} {seeds : List UInt32} {address : UInt32} :
    address ∈ Std.TreeSet.ofList (seeds.map space.canonical) ↔
      ∃ seed ∈ seeds, space.canonical seed = address := by
  rw [Std.TreeSet.mem_ofList, List.contains_iff_mem, List.mem_map]

theorem canonical_seeds_insert {space : AddressSpace} {before after : List UInt32}
    {again configured : UInt32} (member : configured ∈ before ++ after)
    (same : space.canonical again = space.canonical configured) (address : UInt32) :
    (∃ seed ∈ before ++ again :: after, space.canonical seed = address) ↔
      ∃ seed ∈ before ++ after, space.canonical seed = address := by
  constructor
  · rintro ⟨seed, present, leads⟩
    rw [List.mem_append, List.mem_cons] at present
    rcases present with earlier | rfl | later
    · exact ⟨seed, List.mem_append_left _ earlier, leads⟩
    · exact ⟨configured, member, same.symm.trans leads⟩
    · exact ⟨seed, List.mem_append_right _ later, leads⟩
  · rintro ⟨seed, present, leads⟩
    refine ⟨seed, ?_, leads⟩
    rw [List.mem_append] at present
    rw [List.mem_append, List.mem_cons]
    tauto

namespace Program

/-! ### References -/

/-- The references that instructions make to an address, in their order. -/
def referencesTo (symbols : Symbols) (target : UInt32) (instructions : List Instruction) :
    List Reference :=
  instructions.filterMap fun i =>
    match i.operation with
    | .branch op named =>
      if symbols.canonical named = target then
        some { isCall := op = .jal, origin := symbols.label i.address }
      else none
    | _ => none

theorem reference?_branch (symbols : Symbols) {i : Instruction} {op : Branch} {named : UInt32}
    (names : i.operation = .branch op named) :
    reference? symbols i = some
      (symbols.canonical named, { isCall := op = .jal, origin := symbols.label i.address }) := by
  simp [reference?, target?, Instruction.target?, Instruction.mnemonic, Operation.target?,
    Operation.mnemonic, names]

theorem reference?_eq_none (symbols : Symbols) {i : Instruction}
    (other : ∀ op named, i.operation ≠ .branch op named) : reference? symbols i = none := by
  cases operation : i.operation with
  | branch op named => exact absurd operation (other op named)
  | _ => simp [reference?, target?, Instruction.target?, Operation.target?, operation]

theorem itemsAt_reference? (symbols : Symbols) (target : UInt32)
    (instructions : List Instruction) :
    Index.itemsAt (instructions.filterMap (reference? symbols)) target =
      referencesTo symbols target instructions := by
  induction instructions with
  | nil => rfl
  | cons i rest ih =>
    unfold referencesTo at ih ⊢
    cases operation : i.operation with
    | branch op named =>
      rw [List.filterMap_cons_some (reference?_branch symbols operation)]
      by_cases same : symbols.canonical named = target
      · subst same
        rw [Index.itemsAt_cons_self, ih]
        simp [operation]
      · rw [Index.itemsAt_cons_of_ne same, ih]
        simp [operation, same]
    | _ =>
      rw [List.filterMap_cons_none (reference?_eq_none symbols (by simp [operation])), ih]
      simp [operation]

theorem mem_referencesTo {symbols : Symbols} {target : UInt32} {instructions : List Instruction}
    {reference : Reference} :
    reference ∈ referencesTo symbols target instructions ↔
      ∃ i ∈ instructions, ∃ op named, i.operation = .branch op named ∧
        symbols.canonical named = target ∧
        reference = { isCall := op = .jal, origin := symbols.label i.address } := by
  simp only [referencesTo, List.mem_filterMap]
  constructor
  · rintro ⟨i, member, refers⟩
    split at refers
    · next op named transfers =>
      split at refers
      · next leads =>
        cases refers
        exact ⟨i, member, op, named, transfers, leads, rfl⟩
      · cases refers
    · cases refers
  · rintro ⟨i, member, op, named, transfers, leads, rfl⟩
    exact ⟨i, member, by simp [transfers, leads]⟩

theorem reference?_of_not_isControl (symbols : Symbols) {i : Instruction}
    (fits : i.isControl = false) : reference? symbols i = none := by
  refine reference?_eq_none symbols ?_
  intro op named branches
  cases op <;> simp [Instruction.isControl, Instruction.mnemonic, branches, Operation.mnemonic,
    Mnemonic.isControl, Mnemonic.control?] at fits

/-- Pairing leaves each transfer at its address. -/
theorem filterMap_reference?_arranged (symbols : Symbols) {listing : List Instruction}
    (pairable : Pairable listing) :
    (arranged listing).filterMap (reference? symbols) =
      listing.filterMap (reference? symbols) :=
  pairable.filterMap_arranged (fun _ => reference?_of_not_isControl symbols) fun _ _ _ => rfl

/-! ### Jump tables -/

/-- A word of a jump table: the canonical address of the table, the place and what is stored. -/
structure TableCell where
  seed : UInt32
  index : Nat
  stored : UInt32
  deriving DecidableEq, Repr

def TableCell.entry (symbols : Symbols) (cell : TableCell) : TableEntry where
  table := symbols.label cell.seed
  index := cell.index

/-- The words of the table with these contents. -/
def cellsOf (table : UInt32 × List UInt32) : List TableCell :=
  table.2.zipIdx.map fun (stored, index) => { seed := table.1, index, stored }

/-- Cells are ordered by the address of their table and then by their place. -/
def TableCell.Precedes (x y : TableCell) : Prop :=
  x.seed < y.seed ∨ x.seed = y.seed ∧ x.index < y.index

/-- The cells of the configured jump tables, each once and in order. Tables are known by their
canonical addresses, and all of them can be read. -/
structure CellsOf (annotations : Annotations) (image : Image) (cells : List TableCell) : Prop where
  ascending : cells.Pairwise TableCell.Precedes
  readable : ∀ address ∈ annotations.tables.jumpTables,
    ∃ stored, image.codeTable (annotations.space.canonical address) = .ok stored
  mem_iff : ∀ cell, cell ∈ cells ↔
    ∃ address ∈ annotations.tables.jumpTables, annotations.space.canonical address = cell.seed ∧
      ∃ stored, image.codeTable cell.seed = .ok stored ∧ stored[cell.index]? = some cell.stored

theorem mem_cellsOf {table : UInt32 × List UInt32} {cell : TableCell} :
    cell ∈ cellsOf table ↔ cell.seed = table.1 ∧ table.2[cell.index]? = some cell.stored := by
  obtain ⟨seed, index, stored⟩ := cell
  simp only [cellsOf, List.mem_map, Prod.exists, TableCell.mk.injEq]
  constructor
  · rintro ⟨word, place, member, rfl, rfl, rfl⟩
    exact ⟨rfl, List.mk_mem_zipIdx_iff_getElem?.mp member⟩
  · rintro ⟨rfl, found⟩
    exact ⟨stored, index, List.mk_mem_zipIdx_iff_getElem?.mpr found, rfl, rfl, rfl⟩

theorem pairwise_cellsOf (table : UInt32 × List UInt32) :
    (cellsOf table).Pairwise TableCell.Precedes := by
  have places : (table.2.zipIdx.map Prod.snd).Pairwise (· < ·) := by
    rw [List.zipIdx_map_snd]
    exact List.pairwise_lt_range'
  rw [cellsOf, List.pairwise_map]
  exact (List.pairwise_map.mp places).imp fun earlier => .inr ⟨rfl, earlier⟩

theorem pairwise_flatMap_cellsOf {tables : List (UInt32 × List UInt32)}
    (ascending : (tables.map Prod.fst).Pairwise (· < ·)) :
    (tables.flatMap cellsOf).Pairwise TableCell.Precedes := by
  rw [List.pairwise_flatMap]
  refine ⟨fun table _ => pairwise_cellsOf table, (List.pairwise_map.mp ascending).imp ?_⟩
  intro table next earlier x inTable y inNext
  left
  rw [(mem_cellsOf.mp inTable).1, (mem_cellsOf.mp inNext).1]
  exact earlier

theorem entriesOf_eq_ok {symbols : Symbols} {seed : UInt32} {found : List (UInt32 × TableEntry)}
    (returned : entriesOf symbols seed = .ok found) :
    ∃ stored, symbols.image.codeTable seed = .ok stored ∧
      found = (cellsOf (seed, stored)).map fun cell =>
        (symbols.canonical cell.stored, cell.entry symbols) := by
  obtain ⟨stored, read, returned⟩ := exists_of_bind_eq_ok returned
  cases returned
  refine ⟨stored, read, ?_⟩
  simp only [cellsOf, List.map_map]
  rfl

/-- Tables are read one after the other. -/
theorem flatten_entriesOf {symbols : Symbols} {seeds : List UInt32}
    {found : List (List (UInt32 × TableEntry))}
    (read : List.Forall₂ (fun seed entries => entriesOf symbols seed = .ok entries) seeds found) :
    ∃ tables : List (UInt32 × List UInt32), tables.map Prod.fst = seeds ∧
      (∀ table ∈ tables, symbols.image.codeTable table.1 = .ok table.2) ∧
      found.flatten = (tables.flatMap cellsOf).map fun cell =>
        (symbols.canonical cell.stored, cell.entry symbols) := by
  induction read with
  | nil => exact ⟨[], rfl, nofun, rfl⟩
  | @cons seed entries rest others first _ ih =>
    obtain ⟨stored, contents, entriesEq⟩ := entriesOf_eq_ok first
    obtain ⟨tables, seeds, later, othersEq⟩ := ih
    refine ⟨(seed, stored) :: tables, by simp [seeds], ?_, ?_⟩
    · intro table member
      rcases List.mem_cons.mp member with rfl | member
      · exact contents
      · exact later table member
    · rw [List.flatten_cons, othersEq, entriesEq, List.flatMap_cons, List.map_append]

theorem allEntries_eq_ok {symbols : Symbols} {entries : List (UInt32 × TableEntry)}
    (returned : allEntries symbols = .ok entries) :
    ∃ tables : List (UInt32 × List UInt32), tables.map Prod.fst = symbols.jumpTables.toList ∧
      (∀ table ∈ tables, symbols.image.codeTable table.1 = .ok table.2) ∧
      entries = (tables.flatMap cellsOf).map fun cell =>
        (symbols.canonical cell.stored, cell.entry symbols) := by
  obtain ⟨found, read, returned⟩ := exists_of_bind_eq_ok returned
  cases returned
  exact flatten_entriesOf (forall₂_of_mapM_eq_ok read)

theorem cellsOf_of_allEntries {symbols : Symbols} {tables : List (UInt32 × List UInt32)}
    (seeds : tables.map Prod.fst = symbols.jumpTables.toList)
    (read : ∀ table ∈ tables, symbols.image.codeTable table.1 = .ok table.2)
    (configured : ∀ seed, seed ∈ symbols.jumpTables ↔
      ∃ address ∈ symbols.annotations.tables.jumpTables,
        symbols.annotations.space.canonical address = seed) :
    CellsOf symbols.annotations symbols.image (tables.flatMap cellsOf) := by
  have known (seed : UInt32) : (∃ stored, (seed, stored) ∈ tables) ↔
      ∃ address ∈ symbols.annotations.tables.jumpTables,
        symbols.annotations.space.canonical address = seed := by
    rw [← configured, ← Std.TreeSet.mem_toList, ← seeds]
    simp
  refine ⟨?_, ?_, ?_⟩
  · apply pairwise_flatMap_cellsOf
    rw [seeds]
    exact Std.TreeSet.ordered_toList.imp Std.compare_eq_lt.mp
  · intro address member
    obtain ⟨stored, present⟩ := (known _).mpr ⟨address, member, rfl⟩
    have contents := read _ present
    exact ⟨stored, contents⟩
  · intro cell
    simp only [List.mem_flatMap, mem_cellsOf]
    constructor
    · rintro ⟨⟨seed, stored⟩, present, same, found⟩
      obtain ⟨address, member, canonical⟩ := (known seed).mp ⟨stored, present⟩
      have contents := read _ present
      rw [← same] at contents
      exact ⟨address, member, canonical.trans same.symm, stored, contents, found⟩
    · -- Reading is a function, so the words that were read are the ones `cell` comes from.
      rintro ⟨address, member, canonical, stored, contents, found⟩
      obtain ⟨words, present⟩ := (known _).mpr ⟨address, member, canonical⟩
      have same : words = stored := by
        have again := read _ present
        rw [contents] at again
        exact (Except.ok.inj again).symm
      subst same
      exact ⟨(cell.seed, words), present, rfl, found⟩

/-! ### Reconstruction -/

theorem reconstruct_eq_ok {symbols : Symbols} {listing : List Instruction} {program : Program}
    (returned : reconstruct symbols listing = .ok program) :
    ∃ entries paired, allEntries symbols = .ok entries ∧
      Pairing.ofInstructions listing = .ok paired ∧
      program = {
        instructions := paired.program.toList
        blockStarts := (symbols.functions.insertMany (entries.map Prod.fst)).insertMany
          ((listing.filterMap (reference? symbols)).map Prod.fst)
        references := Index.ofPairs (listing.filterMap (reference? symbols))
        tableEntries := Index.ofPairs entries
        delaySlots := paired.delaySlots } := by
  obtain ⟨entries, read, returned⟩ := exists_of_bind_eq_ok returned
  obtain ⟨paired, pairs, returned⟩ := exists_of_bind_eq_ok returned
  refine ⟨entries, paired, read, mapError_eq_ok_iff.mp pairs, ?_⟩
  cases jumps : jumpToDelaySlot? symbols paired.program.toList paired.delaySlots with
  | some fault =>
    simp only [jumps] at returned
    cases returned
  | none =>
    simp only [jumps] at returned
    cases returned
    rfl

theorem instructions_of_reconstruct {symbols : Symbols} {listing : List Instruction}
    {program : Program} (returned : reconstruct symbols listing = .ok program) :
    Pairable listing ∧ program.instructions = arranged listing := by
  obtain ⟨entries, paired, -, pairs, rfl⟩ := reconstruct_eq_ok returned
  obtain ⟨pairable, arrangement, -⟩ := Pairing.ofInstructions_ok pairs
  exact ⟨pairable, arrangement⟩

theorem mem_references {symbols : Symbols} {listing : List Instruction} {address : UInt32} :
    address ∈ (listing.filterMap (reference? symbols)).map Prod.fst ↔
      ∃ i ∈ listing, ∃ op named, i.operation = .branch op named ∧
        symbols.canonical named = address := by
  simp only [List.mem_map, List.mem_filterMap]
  constructor
  · rintro ⟨pair, ⟨i, member, refers⟩, rfl⟩
    by_cases names : ∃ op named, i.operation = .branch op named
    · obtain ⟨op, named, names⟩ := names
      rw [reference?_branch symbols names] at refers
      cases refers
      exact ⟨i, member, op, named, names, rfl⟩
    · rw [reference?_eq_none symbols fun op named same => names ⟨op, named, same⟩] at refers
      cases refers
  · rintro ⟨i, member, op, named, names, rfl⟩
    exact ⟨_, ⟨i, member, reference?_branch symbols names⟩, rfl⟩

/-- What the indexes of a program hold, in terms of its listing, the functions and the cells of its
jump tables. -/
structure Indexed (symbols : Symbols) (functions : Std.TreeSet UInt32) (listing : List Instruction)
    (cells : List TableCell) (program : Program) : Prop where
  blockStarts : ∀ address, address ∈ program.blockStarts ↔
    address ∈ functions ∨ (∃ cell ∈ cells, symbols.canonical cell.stored = address) ∨
      ∃ i ∈ listing, ∃ op named, i.operation = .branch op named ∧ symbols.canonical named = address
  references : ∀ target,
    program.references[target]? = listed? (referencesTo symbols target listing)
  recomputed : Index.ofPairs (program.instructions.filterMap (reference? symbols)) =
    program.references
  tableEntries : ∀ target, program.tableEntries[target]? =
    listed? ((cells.filter fun cell => symbols.canonical cell.stored == target).map
      (TableCell.entry symbols))
  once : (program.tableEntries.toList.flatMap Prod.snd).Perm (cells.map (TableCell.entry symbols))

theorem indexed_of_reconstruct {symbols : Symbols} {listing : List Instruction} {program : Program}
    (returned : reconstruct symbols listing = .ok program)
    (configured : ∀ seed, seed ∈ symbols.jumpTables ↔
      ∃ address ∈ symbols.annotations.tables.jumpTables,
        symbols.annotations.space.canonical address = seed) :
    ∃ cells, CellsOf symbols.annotations symbols.image cells ∧
      Indexed symbols symbols.functions listing cells program := by
  obtain ⟨pairable, arrangement⟩ := instructions_of_reconstruct returned
  obtain ⟨entries, paired, read, -, rfl⟩ := reconstruct_eq_ok returned
  obtain ⟨tables, seeds, contents, rfl⟩ := allEntries_eq_ok read
  refine ⟨tables.flatMap cellsOf, cellsOf_of_allEntries seeds contents configured, ?_⟩
  refine ⟨?_, ?_, ?_, ?_, ?_⟩
  · intro address
    rw [Std.TreeSet.mem_insertMany_list, Std.TreeSet.mem_insertMany_list, List.contains_iff_mem,
      List.contains_iff_mem, mem_references, or_assoc, List.map_map]
    simp only [List.mem_map, Function.comp_apply]
  · intro target
    rw [Index.getElem?_ofPairs, itemsAt_reference?]
  · -- The index was made from the listing; pairing keeps the transfers in their order.
    change Index.ofPairs (paired.program.toList.filterMap (reference? symbols)) = _
    rw [show paired.program.toList = arranged listing from arrangement,
      filterMap_reference?_arranged symbols pairable]
  · intro target
    rw [Index.getElem?_ofPairs, Index.itemsAt, List.filter_map, List.map_map]
    rfl
  · have together := Index.flatMap_toList_ofPairs
      ((tables.flatMap cellsOf).map fun cell =>
        (symbols.canonical cell.stored, cell.entry symbols))
    rwa [List.map_map] at together

/-! ### Aliases of tables -/

theorem reference?_eq_of_sameTables {other symbols : Symbols} (same : SameTables other symbols) :
    reference? other = reference? symbols := by
  funext i
  simp only [reference?, target?, funext same.canonical, same.label]

theorem entriesOf_eq_of_sameTables {other symbols : Symbols} (same : SameTables other symbols) :
    entriesOf other = entriesOf symbols := by
  funext seed
  simp only [entriesOf, same.image, same.canonical, same.label]

theorem allEntries_eq_of_sameTables {other symbols : Symbols} (same : SameTables other symbols) :
    allEntries other = allEntries symbols := by
  -- The trees may differ in shape, but they list the same addresses in ascending order.
  have seeds : other.jumpTables.toList = symbols.jumpTables.toList :=
    (Std.TreeSet.Equiv.of_forall_mem_iff same.jumpTables).toList_eq
  simp only [allEntries, seeds, entriesOf_eq_of_sameTables same]

theorem jumpToDelaySlot?_eq_of_sameTables {other symbols : Symbols}
    (same : SameTables other symbols) :
    jumpToDelaySlot? other = jumpToDelaySlot? symbols := by
  funext instructions delaySlots
  simp only [jumpToDelaySlot?, target?, funext same.canonical]

theorem reconstruct_eq_of_sameTables {other symbols : Symbols} (same : SameTables other symbols)
    (listing : List Instruction) :
    reconstruct other listing = reconstruct symbols listing := by
  simp only [reconstruct, allEntries_eq_of_sameTables same,
    reference?_eq_of_sameTables same, jumpToDelaySlot?_eq_of_sameTables same, same.functions]

/-- Of the addresses of jump tables only the canonical forms matter. -/
theorem reconstruct_withJumpTables {annotations : Annotations} {bytes : Array UInt8}
    {functions : Std.TreeSet UInt32} {symbols : Symbols}
    (built : Symbols.build annotations bytes functions = .ok symbols) {seeds : List UInt32}
    (same : ∀ address, (∃ seed ∈ seeds, annotations.space.canonical seed = address) ↔
      ∃ seed ∈ annotations.tables.jumpTables, annotations.space.canonical seed = address)
    (listing : List Instruction) :
    ∃ other, Symbols.build (annotations.withJumpTables seeds) bytes functions = .ok other ∧
      reconstruct other listing = reconstruct symbols listing := by
  refine ⟨_, Symbols.build_withJumpTables built seeds, ?_⟩
  rw [Symbols.build_eq_ok built]
  apply reconstruct_eq_of_sameTables
  refine ⟨rfl, rfl, rfl, rfl, ?_⟩
  intro address
  rw [mem_canonical_seeds, mem_canonical_seeds, same]

/-- The indexes of a reconstructed program hold what the listing, the functions and the configured
jump tables say and nothing else, and configuring a table once more by another address of it changes
nothing. -/
theorem reconstruct_indexes_exact (annotations : Annotations) (bytes : Array UInt8)
    (functions : Std.TreeSet UInt32) (symbols : Symbols) (listing : List Instruction)
    (program : Program) (built : Symbols.build annotations bytes functions = .ok symbols)
    (returned : reconstruct symbols listing = .ok program) :
    (∃ cells, CellsOf annotations { space := annotations.space, bytes } cells ∧
      Indexed symbols functions listing cells program) ∧
    ∀ before after again configured, annotations.tables.jumpTables = before ++ after →
      configured ∈ annotations.tables.jumpTables →
      annotations.space.canonical again = annotations.space.canonical configured →
      ∃ other,
        Symbols.build (annotations.withJumpTables (before ++ again :: after)) bytes functions =
          .ok other ∧
        reconstruct other listing = .ok program := by
  constructor
  · have fields := Symbols.build_eq_ok built
    rw [fields] at returned ⊢
    exact indexed_of_reconstruct returned fun seed => mem_canonical_seeds
  · intro before after again configured listed member same
    rw [← returned]
    apply reconstruct_withJumpTables built
    rw [listed] at member ⊢
    exact canonical_seeds_insert member same

/-- Code at the start of memory that also shows at `0x1000`, with a jump table at `0x10`. -/
def mirroredAnnotations : Annotations where
  space :=
    { ranges := [{ kind := .code, start := 0, last := 0xff, label := "code" }]
      mirror := some { start := 0x1000, size := 0x100, canonical := 0 } }
  tables := { jumpTables := [0x10] }

/-- The table holds `4`, the mirrored `8` and `4` again, and ends at a word that is no address of
code. -/
def mirroredBytes : Array UInt8 :=
  Array.replicate 16 0 ++ #[0, 0, 0, 4, 0, 0, 0x10, 8, 0, 0, 0, 4, 0xff, 0xff, 0xff, 0xff]

/-- A call with a filler in its delay slot, and a branch with a `nop`. -/
def mirroredListing : List Instruction :=
  [{ address := 0, listedAddress := 0, operation := .branch .jal 0x1008, text := "l.jal 1008" },
    { address := 4, listedAddress := 4, operation := .aluImmediate .addi .link .link 1,
      text := "l.addi r9,r9,1" },
    { address := 8, listedAddress := 8, operation := .branch .bf 8, text := "l.bf 8" },
    { address := 12, listedAddress := 12, operation := .bare .nop, text := "l.nop" }]

theorem reconstruct_indexes_exact_mirrored :
    ∃ symbols program,
      Symbols.build mirroredAnnotations mirroredBytes {} = .ok symbols ∧
      reconstruct symbols mirroredListing = .ok program ∧
      (∃ cells,
        CellsOf mirroredAnnotations { space := mirroredAnnotations.space, bytes := mirroredBytes }
          cells ∧
        Indexed symbols {} mirroredListing cells program) ∧
      ∃ other,
        Symbols.build (mirroredAnnotations.withJumpTables [0x10, 0x1010]) mirroredBytes {} =
          .ok other ∧
        reconstruct other mirroredListing = .ok program := by
  obtain ⟨symbols, built⟩ : ∃ symbols, Symbols.build mirroredAnnotations mirroredBytes {} =
    .ok symbols := ⟨_, rfl⟩
  have succeeds : (Symbols.build mirroredAnnotations mirroredBytes {} >>= fun symbols =>
      reconstruct symbols mirroredListing).isOk = true := by decide +kernel
  rw [built] at succeeds
  obtain ⟨program, returned⟩ := exists_of_isOk succeeds
  change reconstruct symbols mirroredListing = .ok program at returned
  obtain ⟨indexed, alike⟩ := reconstruct_indexes_exact mirroredAnnotations mirroredBytes {} symbols
    mirroredListing program built returned
  exact ⟨symbols, program, built, returned, indexed,
    alike [0x10] [] 0x1010 0x10 rfl (by decide) (by decide)⟩

end Program

end Disassembly
