import Disassembly.Proofs.Reconstruction
import Disassembly.Proofs.Runs

/-!
# String tables read ahead

The configured string tables are read once, in order, and stored by the canonical address of their
seed. A later seed with the same canonical address overwrites what an earlier one has stored, but
reading looks at the canonical address alone (`Image.stringTable_congr`), so it stores the same
strings again. The invariant of the loop is that the tables hold what the image has at the seeds
read so far (`HoldsTables`). The first seed whose table is not read decides how building ends. If
that table has no end, building does not end either, and what is wrong with later tables is never
found.
-/

namespace Disassembly

open Memory

theorem Memory.Image.stringTable_congr {image : Image} {a b : UInt32}
    (same : image.space.canonical a = image.space.canonical b) :
    image.stringTable a = image.stringTable b := by
  unfold stringTable run
  rw [same]

namespace Symbols

/-- By canonical address, the tables that the image has at the seeds, and no others. -/
def HoldsTables (image : Image) (seeds : List UInt32)
    (tables : Std.TreeMap UInt32 (List String)) : Prop :=
  ∀ key strings, tables[key]? = some strings ↔
    ∃ seed ∈ seeds, image.space.canonical seed = key ∧ image.stringTable seed = .ok strings

section Loop

variable {image : Image} {seeds rest : List UInt32} {tables : Std.TreeMap UInt32 (List String)}

theorem holdsTables_nil (image : Image) : HoldsTables image [] {} := by
  intro key strings
  simp

/-- Reading one more table keeps the invariant, also where a table is stored already. -/
theorem HoldsTables.insert (holds : HoldsTables image seeds tables) {seed : UInt32}
    {strings : List String} (read : image.stringTable seed = .ok strings) :
    HoldsTables image (seeds ++ [seed])
      (tables.insert (image.space.canonical seed) strings) := by
  intro key found
  rw [Std.TreeMap.getElem?_insert]
  by_cases same : image.space.canonical seed = key
  · subst same
    rw [if_pos Std.ReflCmp.compare_self]
    constructor
    · rintro ⟨⟩
      exact ⟨seed, by simp, rfl, read⟩
    · -- Whatever was stored here before was read at the same canonical address.
      rintro ⟨other, -, alike, readToo⟩
      rw [Image.stringTable_congr alike, read] at readToo
      cases readToo
      rfl
  · have differs : compare (image.space.canonical seed) key ≠ .eq :=
      fun equal => same (Std.LawfulEqCmp.eq_of_compare equal)
    rw [if_neg differs, holds key found]
    constructor
    · rintro ⟨other, member, facts⟩
      exact ⟨other, List.mem_append_left _ member, facts⟩
    · rintro ⟨other, member, leads, readToo⟩
      rcases List.mem_append.mp member with earlier | last
      · exact ⟨other, earlier, leads, readToo⟩
      · cases List.mem_singleton.mp last
        exact absurd leads same

/-- From tables that hold what the seeds before have, the loop comes to those of all seeds. -/
theorem HoldsTables.foldlM (holds : HoldsTables image seeds tables)
    {found : Std.TreeMap UInt32 (List String)}
    (read : rest.foldlM (fun tables seed => do
      return tables.insert (image.space.canonical seed) (← image.stringTable seed)) tables =
        .ok found) :
    HoldsTables image (seeds ++ rest) found := by
  induction rest generalizing seeds tables with
  | nil =>
    cases read
    rwa [List.append_nil]
  | cons seed rest ih =>
    rw [List.foldlM_cons] at read
    obtain ⟨next, stored, read⟩ := exists_of_bind_eq_ok read
    obtain ⟨strings, first, stored⟩ := exists_of_bind_eq_ok stored
    cases stored
    have later := ih (holds.insert first) read
    rwa [List.append_assoc] at later

theorem holdsTables_of_readStringTables (read : readStringTables image seeds = .ok tables) :
    HoldsTables image seeds tables :=
  (holdsTables_nil image).foldlM read

theorem readStringTables_eq_error_iff {reason : NoValue} :
    readStringTables image seeds = .error reason ↔
      seeds.mapM image.stringTable = .error reason :=
  foldlM_store_eq_error_iff

end Loop

section Build

variable {annotations : Annotations} {bytes : Array UInt8} {functions : Std.TreeSet UInt32}
  {symbols : Symbols}

/-- The first seed whose table is not read decides. -/
theorem build_eq_error_iff {reason : NoValue} :
    build annotations bytes functions = .error reason ↔
      ∃ before seed after, annotations.tables.stringTables = before ++ seed :: after ∧
        Image.stringTable { space := annotations.space, bytes } seed = .error reason ∧
        ∀ other ∈ before,
          ∃ strings, Image.stringTable { space := annotations.space, bytes } other = .ok strings := by
  rw [← mapM_eq_error_iff, ← readStringTables_eq_error_iff, build]
  cases readStringTables _ annotations.tables.stringTables <;>
    simp [bind, Except.bind, pure, Except.pure]

/-- A seed whose table is not read prevents the symbols, but need not be the one that decides. -/
theorem exists_build_eq_error {seed : UInt32}
    (configured : seed ∈ annotations.tables.stringTables) {reason : NoValue}
    (failed : Image.stringTable { space := annotations.space, bytes } seed = .error reason) :
    ∃ first, build annotations bytes functions = .error first := by
  obtain ⟨first, failed⟩ := exists_mapM_eq_error_iff.mpr ⟨seed, configured, reason, failed⟩
  exact ⟨first, build_eq_error_iff.mpr (mapM_eq_error_iff.mp failed)⟩

/-- Building goes on forever exactly if it comes to a table without an end. -/
theorem build_eq_endless_iff :
    build annotations bytes functions = .error .endless ↔
      ∃ before seed after, annotations.tables.stringTables = before ++ seed :: after ∧
        ¬Image.Halts { space := annotations.space, bytes }
          (Image.pointsToString { space := annotations.space, bytes })
          (annotations.space.canonical seed) ∧
        ∀ other ∈ before,
          ∃ strings, Image.stringTable { space := annotations.space, bytes } other = .ok strings := by
  simp only [build_eq_error_iff, Image.stringTable_eq_endless_iff]

theorem exists_build_fault_iff (ends : build annotations bytes functions ≠ .error .endless) :
    (∃ fault, build annotations bytes functions = .error (.fault fault)) ↔
      ∃ seed ∈ annotations.tables.stringTables, ∃ fault,
        Image.stringTable { space := annotations.space, bytes } seed = .error (.fault fault) := by
  constructor
  · rintro ⟨fault, failed⟩
    obtain ⟨before, seed, after, split, failed, -⟩ := build_eq_error_iff.mp failed
    exact ⟨seed, by simp [split], fault, failed⟩
  · rintro ⟨seed, configured, fault, failed⟩
    obtain ⟨first, failed⟩ : ∃ first, build annotations bytes functions = .error first :=
      exists_build_eq_error configured failed
    cases first with
    | fault first => exact ⟨first, failed⟩
    | endless => exact absurd failed ends

theorem holdsTables_of_build (built : build annotations bytes functions = .ok symbols) :
    HoldsTables { space := annotations.space, bytes } annotations.tables.stringTables
      symbols.stringTables := by
  obtain ⟨tables, read, returned⟩ := exists_of_bind_eq_ok built
  cases returned
  exact holdsTables_of_readStringTables read

theorem stringTable?_eq_some_iff (built : build annotations bytes functions = .ok symbols)
    {address : UInt32} {strings : List String} :
    symbols.stringTable? address = some strings ↔
      ∃ seed ∈ annotations.tables.stringTables,
        annotations.space.canonical seed = annotations.space.canonical address ∧
          Image.stringTable { space := annotations.space, bytes } seed = .ok strings := by
  have key : symbols.canonical address = annotations.space.canonical address := by
    rw [build_eq_ok built]
    rfl
  rw [stringTable?, key]
  exact holdsTables_of_build built _ strings

/-- No seed is without its table once the symbols have been built. -/
theorem exists_stringTable_of_build (built : build annotations bytes functions = .ok symbols)
    {seed : UInt32} (configured : seed ∈ annotations.tables.stringTables) :
    ∃ strings, Image.stringTable { space := annotations.space, bytes } seed = .ok strings := by
  cases read : Image.stringTable { space := annotations.space, bytes } seed with
  | ok strings => exact ⟨strings, rfl⟩
  | error reason =>
    obtain ⟨first, failed⟩ : ∃ first, build annotations bytes functions = .error first :=
      exists_build_eq_error configured read
    cases built.symm.trans failed

theorem exists_stringTable?_iff (built : build annotations bytes functions = .ok symbols)
    {address : UInt32} :
    (∃ strings, symbols.stringTable? address = some strings) ↔
      ∃ seed ∈ annotations.tables.stringTables,
        annotations.space.canonical seed = annotations.space.canonical address := by
  constructor
  · rintro ⟨strings, found⟩
    obtain ⟨seed, configured, same, -⟩ := (stringTable?_eq_some_iff built).mp found
    exact ⟨seed, configured, same⟩
  · rintro ⟨seed, configured, same⟩
    obtain ⟨strings, read⟩ := exists_stringTable_of_build built configured
    exact ⟨strings, (stringTable?_eq_some_iff built).mpr ⟨seed, configured, same, read⟩⟩

/-- What was read ahead is what would be read now. -/
theorem stringTable_of_stringTable? (built : build annotations bytes functions = .ok symbols)
    {address : UInt32} {strings : List String}
    (found : symbols.stringTable? address = some strings) :
    Image.stringTable { space := annotations.space, bytes } address = .ok strings := by
  obtain ⟨seed, -, same, read⟩ := (stringTable?_eq_some_iff built).mp found
  rw [← read]
  exact Image.stringTable_congr same.symm

theorem stringTable?_congr (built : build annotations bytes functions = .ok symbols)
    {address other : UInt32}
    (same : annotations.space.canonical other = annotations.space.canonical address) :
    symbols.stringTable? other = symbols.stringTable? address := by
  apply Option.ext
  intro strings
  rw [stringTable?_eq_some_iff built, stringTable?_eq_some_iff built, same]

end Build

/-- The tables that are read ahead are those that the image has. Building the symbols does not end
exactly if the first table that is not read has no end, which takes an image of half the address
space. Otherwise it fails exactly if the table of some seed leaves the image, with the fault of the
first one. If it succeeds there is a table at exactly the addresses that have their canonical form in
common with a seed, and it is the one that would be read there, so all addresses and seeds with one
canonical form have the same table. -/
theorem tables_read_ahead_agree (annotations : Annotations) (bytes : Array UInt8)
    (functions : Std.TreeSet UInt32) :
    let image : Image := { space := annotations.space, bytes }
    let seeds := annotations.tables.stringTables
    (build annotations bytes functions = .error .endless ↔
      ∃ before seed after, seeds = before ++ seed :: after ∧
        ¬image.Halts image.pointsToString (image.space.canonical seed) ∧
        ∀ other ∈ before, ∃ strings, image.stringTable other = .ok strings) ∧
    (image.size < 0x80000000 → build annotations bytes functions ≠ .error .endless) ∧
    (build annotations bytes functions ≠ .error .endless →
      ((∃ fault, build annotations bytes functions = .error (.fault fault)) ↔
        ∃ seed ∈ seeds, ∃ fault, image.stringTable seed = .error (.fault fault))) ∧
    (∀ fault, build annotations bytes functions = .error (.fault fault) ↔
      ∃ before seed after, seeds = before ++ seed :: after ∧
        image.stringTable seed = .error (.fault fault) ∧
        ∀ other ∈ before, ∃ strings, image.stringTable other = .ok strings) ∧
    ∀ symbols, build annotations bytes functions = .ok symbols → ∀ address,
      ((∃ strings, symbols.stringTable? address = some strings) ↔
        ∃ seed ∈ seeds, image.space.canonical seed = image.space.canonical address) ∧
      (∀ strings, symbols.stringTable? address = some strings →
        image.stringTable address = .ok strings) ∧
      ∀ other, image.space.canonical other = image.space.canonical address →
        symbols.stringTable? other = symbols.stringTable? address ∧
          image.stringTable other = image.stringTable address := by
  intro image seeds
  refine ⟨build_eq_endless_iff, ?_, exists_build_fault_iff, fun fault => build_eq_error_iff, ?_⟩
  · intro small forever
    obtain ⟨before, seed, after, -, loops, -⟩ := build_eq_endless_iff.mp forever
    exact loops (Image.halts_of_small small _ _)
  · intro symbols built address
    refine ⟨exists_stringTable?_iff built, fun strings => stringTable_of_stringTable? built, ?_⟩
    intro other same
    exact ⟨stringTable?_congr built same, Image.stringTable_congr same⟩

/-- Data memory that a window at `0x1000` shows again, with string tables at the seeds. -/
def seededAnnotations (seeds : List UInt32) : Annotations where
  space := { ranges := [⟨.data, 0, 0xff, "data"⟩], mirror := some ⟨0x1000, 0x100, 0⟩ }
  tables := { stringTables := seeds }

/-- A table with one pointer, into the window, and the string behind the table. -/
def seededBytes : Array UInt8 :=
  #[0, 0, 0x10, 8, 0, 0, 0, 0, 0x61, 0]

/-- One table with its seed written three times, and then two tables outside the image. -/
theorem tables_read_ahead_agree_mirrored :
    (∃ symbols, build (seededAnnotations [0x1000, 0, 0x1000]) seededBytes {} = .ok symbols ∧
      symbols.stringTable? 0 = some ["\"a\""] ∧
      symbols.stringTable? 0x1000 = symbols.stringTable? 0 ∧
      ¬∃ strings, symbols.stringTable? 4 = some strings) ∧
    build (seededAnnotations [0, 0x1200, 0x3000]) seededBytes {} =
      .error (.fault (.bounds 0x1200 10)) := by
  have table : Image.stringTable { space := (seededAnnotations []).space, bytes := seededBytes } 0 =
      .ok ["\"a\""] := rfl
  constructor
  · obtain ⟨symbols, built⟩ : ∃ symbols,
        build (seededAnnotations [0x1000, 0, 0x1000]) seededBytes {} = .ok symbols := ⟨_, rfl⟩
    obtain ⟨-, -, -, -, agree⟩ :=
      tables_read_ahead_agree (seededAnnotations [0x1000, 0, 0x1000]) seededBytes {}
    obtain ⟨present, read, shared⟩ := agree symbols built 0
    obtain ⟨strings, found⟩ := present.mpr ⟨0x1000, by decide, by decide⟩
    cases table.symm.trans (read strings found)
    refine ⟨symbols, built, found, (shared 0x1000 (by decide)).1, fun other => ?_⟩
    obtain ⟨seed, configured, same⟩ := (agree symbols built 4).1.mp other
    simp only [seededAnnotations, List.mem_cons, List.not_mem_nil, or_false] at configured
    rcases configured with rfl | rfl | rfl
    all_goals exact absurd same (by decide)
  · obtain ⟨-, -, -, first, -⟩ :=
      tables_read_ahead_agree (seededAnnotations [0, 0x1200, 0x3000]) seededBytes {}
    refine (first _).mpr ⟨[0], 0x1200, [0x3000], rfl, rfl, ?_⟩
    intro other member
    cases List.mem_singleton.mp member
    exact ⟨_, table⟩

/-- String tables at `0` and at `1`, in memory that fills half the address space. -/
def overlappingAnnotations : Annotations where
  space := Image.halfSpace .data
  tables := { stringTables := [0, 1] }

/-- Ones, with a zero behind the string at `0x01010101`. -/
def onesBytes (size : Nat) : Array UInt8 :=
  (Array.replicate size 1).setIfInBounds 0x01010102 0

theorem size_onesBytes (size : Nat) : (onesBytes size).size = size := by
  simp [onesBytes]

theorem toNat_getD_onesBytes {size k : Nat} (inside : k < size) :
    ((onesBytes size).getD k 0).toNat = if 0x01010102 = k then 0 else 1 := by
  rw [Array.getD_eq_getD_getElem?, onesBytes, Array.getElem?_setIfInBounds]
  split
  · next same =>
    subst same
    simp [inside]
  · simp [inside]

/-- There is no null pointer, because no two zeros stand next to each other. -/
theorem wordAt_onesBytes_ne_zero {space : AddressSpace} {size : Nat} {cursor : UInt32}
    (readable : Image.Readable { space, bytes := onesBytes size } cursor) :
    Image.wordAt { space, bytes := onesBytes size } cursor ≠ 0 := by
  have inside : (space.canonical cursor).toNat + 4 ≤ size := by
    simpa only [Image.Readable, Image.size, size_onesBytes] using readable
  have byte (k : Nat) (small : k < 4) :=
    toNat_getD_onesBytes (show (space.canonical cursor).toNat + k < size by omega)
  have low (k : Nat) (small : k < 4) :
      ((onesBytes size).getD ((space.canonical cursor).toNat + k) 0).toNat ≤ 1 := by
    rw [byte k small]
    split <;> omega
  have ending : ((onesBytes size).getD ((space.canonical cursor).toNat + 2) 0).toNat = 1 ∨
      ((onesBytes size).getD ((space.canonical cursor).toNat + 3) 0).toNat = 1 := by
    rw [byte 2 (by omega), byte 3 (by omega)]
    split <;> split <;> omega
  intro zero
  have value := congrArg UInt32.toNat zero
  simp only [Image.wordAt, Image.bigEndian, UInt32.toNat_zero] at value
  have first := low 0 (by omega)
  have second := low 1 (by omega)
  have third := low 2 (by omega)
  have fourth := low 3 (by omega)
  rw [UInt32.toNat_ofNat_of_lt' (by change _ < 4294967296; omega)] at value
  omega

/-- The table at `1` leaves the image, but the one at `0` is read first and has no end. -/
theorem endless_table_hides_fault :
    Image.stringTable { space := overlappingAnnotations.space, bytes := onesBytes 0x80000000 } 1 =
      .error (.fault (.bounds 0x7ffffffd 0x80000000)) ∧
    build overlappingAnnotations (onesBytes 0x80000000) {} = .error .endless := by
  have full := size_onesBytes 0x80000000
  have accepted (cursor : UInt32)
      (readable : Image.Readable
        { space := Image.halfSpace .data, bytes := onesBytes 0x80000000 } cursor) :
      Image.pointsToString { space := Image.halfSpace .data, bytes := onesBytes 0x80000000 }
        (Image.wordAt { space := Image.halfSpace .data, bytes := onesBytes 0x80000000 } cursor) =
          true := by
    rw [Image.pointsToString, Bool.and_eq_true, bne_iff_ne]
    exact ⟨wordAt_onesBytes_ne_zero readable, Image.liesIn_halfSpace rfl _⟩
  constructor
  · rw [overlappingAnnotations, Image.stringTable_eq, Image.run_halfSpace_one full accepted]
    rfl
  · refine build_eq_error_iff.mpr ⟨[], 0, [1], rfl, ?_, nofun⟩
    rw [overlappingAnnotations, Image.stringTable_eq_endless_iff]
    exact Image.not_halts_halfSpace full accepted

end Symbols

end Disassembly
