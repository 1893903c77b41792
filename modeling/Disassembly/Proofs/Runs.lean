import Disassembly.Proofs.Mirror
import Disassembly.Proofs.Tables
import Mathlib.Logic.ExistsUnique

/-!
# Runs of table entries

Where the loop over a table ends, the table readers give the maximal run of entries or the address of
the missing word. It ends for every image that fills less than half of the address space: the window
moves addresses by one distance, so of two cursors half the space apart one is read outside such an
image.
-/

namespace Disassembly.Memory.Image

/-! ### Strings in the image -/

/-- The bytes from an offset up to the first zero or the end of the image. -/
def bytesUpToZero (image : Image) (offset : Nat) : List UInt8 :=
  (image.bytes.toList.drop offset).takeWhile (· ≠ 0)

theorem cstringFrom_eq (image : Image) (taken : List UInt8) (limit offset : Nat) :
    image.cstringFrom taken limit offset =
      taken.reverse ++ ((image.bytes.toList.drop offset).take limit).takeWhile (· ≠ 0) := by
  induction limit generalizing taken offset with
  | zero => simp [cstringFrom]
  | succ limit ih =>
    rw [cstringFrom]
    cases read : image.bytes[offset]? with
    | none =>
      have behind : image.bytes.toList.drop offset = [] := by
        rw [List.drop_eq_nil_iff]
        simpa using read
      simp [behind]
    | some byte =>
      have split : image.bytes.toList.drop offset =
          byte :: image.bytes.toList.drop (offset + 1) := by
        obtain ⟨bound, same⟩ := Array.getElem?_eq_some_iff.mp read
        rw [List.drop_eq_getElem_cons (by simpa using bound)]
        simp [same]
      dsimp only
      split
      · next zero => simp [split, zero]
      · next nonzero => simp [ih, split, nonzero]

theorem cstring_eq (image : Image) (address : UInt32) :
    image.cstring address = image.bytesUpToZero (image.space.canonical address).toNat := by
  have short :
      (image.bytes.toList.drop (image.space.canonical address).toNat).length ≤ image.size := by
    simp [size]
  rw [cstring, cstringFrom_eq, List.take_of_length_le short]
  rfl

/-! ### Maximal runs -/

/-- A result that holds exactly the maximal run of entries, or names the word that is missing.
Cursors repeat after `runLimit` words, so only in the first turn does a cursor tell its word. -/
structure IsMaximalRun {α : Type} (image : Image) (accepts : UInt32 → Bool) (start : UInt32)
    (contents : Nat → List α) (result : Except NoValue (List α)) : Prop where
  ok_iff : ∀ n, result = .ok (contents n) ↔ image.EndsAt accepts start n
  error_iff : ∀ n < runLimit, result = .error (.fault (.bounds (cursorAt start n) image.size)) ↔
    image.LeavesAt accepts start n
  unique : ∃! n, image.EndsAt accepts start n ∨ image.LeavesAt accepts start n
  first_turn : ∀ n, image.EndsAt accepts start n ∨ image.LeavesAt accepts start n → n < runLimit

/-- A reader that turns each entry of a table into something else reads a maximal run. -/
theorem StopsAt.isMaximalRun {α : Type} {image : Image} {accepts : UInt32 → Bool}
    {address : UInt32} {n : Nat} (entry : UInt32 → α)
    (stops : image.StopsAt accepts (image.space.canonical address) n) :
    image.IsMaximalRun accepts (image.space.canonical address)
      (fun n => (image.wordsFrom (image.space.canonical address) n).map entry)
      ((image.run accepts address).map (List.map entry)) := by
  rw [stops.run_eq, outcome]
  refine ⟨fun m => ?_, fun m low => ?_, ⟨n, ?_, fun m stopsAgain => ?_⟩, fun m stopsAgain => ?_⟩
  · rw [endsAt_iff]
    constructor
    · intro same
      split at same
      · next readable =>
        -- Runs of one length are the same run.
        have lengths := congrArg List.length (Except.ok.inj same)
        simp only [List.length_map, length_wordsFrom] at lengths
        subst lengths
        exact ⟨stops, readable⟩
      · cases same
    · rintro ⟨again, readable⟩
      cases stops.unique again
      rw [if_pos readable]
      rfl
  · rw [leavesAt_iff]
    constructor
    · intro same
      split at same
      · cases same
      · next outside =>
        obtain ⟨sameCursor, -⟩ := Fault.bounds.inj (NoValue.fault.inj (Except.error.inj same))
        cases eq_of_cursorAt_eq stops.lt_runLimit low sameCursor
        exact ⟨stops, outside⟩
    · rintro ⟨again, outside⟩
      cases stops.unique again
      rw [if_neg outside]
      rfl
  · exact endsAt_or_leavesAt_iff.mpr stops
  · exact (endsAt_or_leavesAt_iff.mp stopsAgain).unique stops
  · exact (endsAt_or_leavesAt_iff.mp stopsAgain).lt_runLimit

/-- The words that a table of strings accepts. -/
def pointsToString (image : Image) (word : UInt32) : Bool :=
  word != 0 && image.space.isPointerTarget word

theorem stringTable_eq (image : Image) (address : UInt32) :
    image.stringTable address =
      (image.run image.pointsToString address).map (List.map image.cstringLiteral) := by
  change (do
    let pointers ← image.run image.pointsToString address
    return pointers.map image.cstringLiteral) = _
  cases image.run image.pointsToString address <;> rfl

theorem stringTable_eq_endless_iff {image : Image} {address : UInt32} :
    image.stringTable address = .error .endless ↔
      ¬image.Halts image.pointsToString (image.space.canonical address) := by
  rw [stringTable_eq, ← run_eq_endless_iff]
  cases image.run image.pointsToString address <;> simp [Except.map]

/-- The quoted string at an address. -/
def quotedAt (image : Image) (address : UInt32) : String :=
  Text.literal (image.bytesUpToZero (image.space.canonical address).toNat)

theorem cstringLiteral_eq : cstringLiteral = quotedAt := by
  funext image address
  rw [cstringLiteral, cstring_eq, quotedAt]

/-- Table readers return exactly the maximal run of entries whenever their loop ends, and look at
the canonical form of the address only. -/
theorem tables_are_maximal_runs (image : Image) (address : UInt32) :
    ((∃ visited result, image.Scans image.space.isExecutable (image.space.canonical address)
        visited result) →
      image.IsMaximalRun image.space.isExecutable (image.space.canonical address)
        (image.wordsFrom (image.space.canonical address)) (image.codeTable address)) ∧
    ((∃ visited result, image.Scans image.pointsToString (image.space.canonical address)
        visited result) →
      image.IsMaximalRun image.pointsToString (image.space.canonical address)
        (fun n => (image.wordsFrom (image.space.canonical address) n).map image.quotedAt)
        (image.stringTable address)) ∧
    ∀ other, image.space.canonical other = image.space.canonical address →
      image.codeTable other = image.codeTable address ∧
        image.stringTable other = image.stringTable address := by
  refine ⟨?_, ?_, fun other same => ?_⟩
  · rintro ⟨visited, result, scan⟩
    obtain ⟨n, stops⟩ := scan.exists_stopsAt
    have maximal := stops.isMaximalRun id
    have unmapped : (image.run image.space.isExecutable address).map (List.map id) =
        image.codeTable address := by
      rw [codeTable, List.map_id_fun]
      cases image.run image.space.isExecutable address <;> rfl
    simpa only [unmapped, List.map_id] using maximal
  · rintro ⟨visited, result, scan⟩
    obtain ⟨n, stops⟩ := scan.exists_stopsAt
    rw [stringTable_eq, cstringLiteral_eq]
    exact stops.isMaximalRun image.quotedAt
  · have runs (accepts : UInt32 → Bool) : image.run accepts other = image.run accepts address := by
      rw [run, run, same]
    exact ⟨runs _, by rw [stringTable_eq, stringTable_eq, runs]⟩

/-- Code addresses at `0`, string pointers at `8`, and a string that ends with the image. The window
at `0x1000` shows it all again. -/
def mirroredTables : Image where
  space :=
    { ranges := [⟨.data, 0, 0xff, "tables"⟩, ⟨.code, 0x100, 0x1ff, "code"⟩]
      mirror := some ⟨0x1000, 0x100, 0⟩ }
  bytes := #[0, 0, 1, 0, 0, 0, 1, 4, 0, 0, 0x10, 0x10, 0, 0, 0, 0, 0x68, 0x22]

theorem tables_are_maximal_runs_mirrored :
    (∃ visited result,
      mirroredTables.Scans mirroredTables.space.isExecutable 0 visited result) ∧
    (∃ visited result, mirroredTables.Scans mirroredTables.pointsToString 8 visited result) ∧
    mirroredTables.codeTable 0x1000 = .ok [0x100, 0x104] ∧
    mirroredTables.EndsAt mirroredTables.space.isExecutable 0 2 ∧
    mirroredTables.stringTable 0x1008 = .ok ["\"h\\\"\""] ∧
    mirroredTables.EndsAt mirroredTables.pointsToString 8 1 ∧
    mirroredTables.stringTable 8 = mirroredTables.stringTable 0x1008 := by
  have codeEnds : ∃ visited result,
      mirroredTables.Scans mirroredTables.space.isExecutable 0 visited result :=
    ⟨_, _, .entry rfl rfl (.entry rfl rfl (.refused rfl rfl))⟩
  have stringsEnd : ∃ visited result,
      mirroredTables.Scans mirroredTables.pointsToString 8 visited result :=
    ⟨_, _, .entry rfl rfl (.refused rfl rfl)⟩
  have code := (tables_are_maximal_runs mirroredTables 0x1000).1 codeEnds
  have strings := (tables_are_maximal_runs mirroredTables 0x1008).2.1 stringsEnd
  have same := (tables_are_maximal_runs mirroredTables 0x1008).2.2 8 rfl
  have codeRead : mirroredTables.codeTable 0x1000 = .ok [0x100, 0x104] := rfl
  have stringsRead : mirroredTables.stringTable 0x1008 = .ok ["\"h\\\"\""] := rfl
  exact ⟨codeEnds, stringsEnd, codeRead, (code.ok_iff 2).mp codeRead, stringsRead,
    (strings.ok_iff 1).mp stringsRead, same.2⟩

/-! ### Termination -/

/-- Two addresses half the address space apart are not both shown below the middle. -/
theorem middle_le_canonical (space : AddressSpace) {address : UInt32}
    (low : 0x7ffffffc ≤ address.toNat) (high : address.toNat < 0x80000000) :
    0x7ffffffc ≤ (space.canonical address).toNat ∨
      0x7ffffffc ≤ (space.canonical (address + 0x80000000)).toNat := by
  have opposite : (address + 0x80000000).toNat = address.toNat + 0x80000000 := by
    rw [UInt32.toNat_add]
    change (address.toNat + 0x80000000) % 4294967296 = address.toNat + 0x80000000
    omega
  unfold AddressSpace.canonical
  cases space.mirror with
  | none => exact .inl low
  | some mirror =>
    dsimp only [Mirror.canonicalize]
    split
    · split
      · -- Both are moved by the same distance, so their images are half the space apart too.
        have apart : address + 0x80000000 - mirror.start + mirror.canonical =
            address - mirror.start + mirror.canonical + 0x80000000 := by
          grind
        rw [apart, UInt32.toNat_add _ 0x80000000]
        change _ ∨ _ ≤ ((address - mirror.start + mirror.canonical).toNat + 0x80000000) % 4294967296
        have bound := (address - mirror.start + mirror.canonical).toNat_lt
        omega
      · right
        omega
    · exact .inl low

/-- A small image has a word of every table outside. -/
theorem exists_not_readable {image : Image} (small : image.size < 0x80000000) (start : UInt32) :
    ∃ n, ¬image.Readable (cursorAt start n) := by
  have aligned := Nat.mod_lt start.toNat (show 0 < 4 by decide)
  -- The last address below the middle that a cursor comes to.
  let last := UInt32.ofNat (0x7ffffffc + start.toNat % 4)
  have toNat_last : last.toNat = 0x7ffffffc + start.toNat % 4 :=
    UInt32.toNat_ofNat_of_lt' (by change _ < 4294967296; omega)
  have visited (address : UInt32) (alignment : address.toNat % 4 = start.toNat % 4)
      (high : 0x7ffffffc ≤ (image.space.canonical address).toNat) :
      ∃ n, ¬image.Readable (cursorAt start n) := by
    obtain ⟨n, rfl⟩ := exists_cursorAt_eq alignment
    refine ⟨n, fun readable => ?_⟩
    unfold Readable at readable
    omega
  have low : 0x7ffffffc ≤ last.toNat := by omega
  have below : last.toNat < 0x80000000 := by omega
  rcases middle_le_canonical image.space low below with high | high
  · exact visited last (by omega) high
  · apply visited _ _ high
    rw [UInt32.toNat_add]
    change (last.toNat + 0x80000000) % 4294967296 % 4 = _
    omega

/-- The loop over a small image ends. -/
theorem halts_of_small {image : Image} (small : image.size < 0x80000000) (accepts : UInt32 → Bool)
    (start : UInt32) : image.Halts accepts start := by
  obtain ⟨k, outside⟩ := exists_not_readable small start
  have missing : ¬image.HasEntry accepts (cursorAt start k) := by
    simp [hasEntry_iff, outside]
  exact halts_iff_exists_stopsAt.mpr (exists_stopsAt missing)

/-- It ends with the result of the reader. -/
theorem exists_scans_run {image : Image} (small : image.size < 0x80000000) (accepts : UInt32 → Bool)
    (address : UInt32) :
    ∃ visited,
      image.Scans accepts (image.space.canonical address) visited (image.run accepts address) ∧
      visited.Nodup ∧
      ((∃ words, image.run accepts address = .ok words) ∨
        ∃ cursor ∈ visited, image.run accepts address = .error (.fault (.bounds cursor image.size))) := by
  obtain ⟨n, stops⟩ := halts_iff_exists_stopsAt.mp
    (halts_of_small small accepts (image.space.canonical address))
  rw [stops.run_eq]
  refine ⟨_, stops.scans, nodup_cursorsFrom stops.lt_runLimit, ?_⟩
  unfold outcome
  split
  · exact .inl ⟨_, rfl⟩
  · exact .inr ⟨_, List.mem_map_of_mem (List.mem_range.mpr (Nat.lt_succ_self n)), rfl⟩

/-- Reading a table comes to an end: the loop of either reader visits no cursor twice and stops with
a list, or with the cursor of a word outside the image. -/
theorem table_loops_terminate (image : Image) (address : UInt32) (small : image.size < 0x80000000) :
    (∃ visited,
      image.Scans image.space.isExecutable (image.space.canonical address) visited
        (image.codeTable address) ∧
      visited.Nodup ∧
      ((∃ words, image.codeTable address = .ok words) ∨
        ∃ cursor ∈ visited, image.codeTable address = .error (.fault (.bounds cursor image.size)))) ∧
    ∃ visited pointers,
      image.Scans image.pointsToString (image.space.canonical address) visited pointers ∧
      visited.Nodup ∧
      image.stringTable address = pointers.map (List.map image.cstringLiteral) ∧
      ((∃ strings, image.stringTable address = .ok strings) ∨
        ∃ cursor ∈ visited, image.stringTable address = .error (.fault (.bounds cursor image.size))) := by
  refine ⟨exists_scans_run small image.space.isExecutable address, ?_⟩
  obtain ⟨visited, scan, once, ending⟩ := exists_scans_run small image.pointsToString address
  refine ⟨visited, _, scan, once, stringTable_eq image address, ?_⟩
  rw [stringTable_eq]
  rcases ending with ⟨words, read⟩ | ⟨cursor, member, failed⟩
  · exact .inl ⟨words.map image.cstringLiteral, by rw [read]; rfl⟩
  · exact .inr ⟨cursor, member, by rw [failed]; rfl⟩

/-- The window passes the end of the address space and overlaps the memory it shows. -/
def wrappingTables : Image where
  space :=
    { ranges := [⟨.code, 0x100, 0x1ff, "code"⟩]
      mirror := some ⟨0xfffffff0, 0x20, 0xfffffff8⟩ }
  bytes := #[0, 0, 1, 0, 0, 0, 1, 4]

/-- The cursor goes around the end of the address space, and the word at `4` is read through the
window and as it stands. -/
theorem table_loops_terminate_wrapping :
    wrappingTables.size < 0x80000000 ∧
    wrappingTables.Scans wrappingTables.space.isExecutable 0xfffffffc [0xfffffffc, 0, 4, 8]
      (.error (.fault (.bounds 8 8))) ∧
    ∃ visited,
      wrappingTables.Scans wrappingTables.space.isExecutable 0xfffffffc visited
        (wrappingTables.codeTable 0xfffffff4) ∧
      visited.Nodup := by
  have small : wrappingTables.size < 0x80000000 := by decide
  obtain ⟨⟨visited, scan, once, -⟩, -⟩ := table_loops_terminate wrappingTables 0xfffffff4 small
  refine ⟨small, ?_, visited, scan, once⟩
  exact .entry rfl rfl (.entry rfl rfl (.entry rfl rfl (.outside rfl)))

/-! ### Tables without an end -/

/-- The lower half of the address space, which the upper half shows again. -/
def halfSpace (kind : RangeKind) : AddressSpace where
  ranges := [⟨kind, 0, 0x7fffffff, "memory"⟩]
  mirror := some ⟨0x80000000, 0x80000000, 0⟩

theorem toNat_canonical_halfSpace (kind : RangeKind) (address : UInt32) :
    ((halfSpace kind).canonical address).toNat = address.toNat % 0x80000000 := by
  have bound := address.toNat_lt
  simp only [AddressSpace.canonical, halfSpace, Mirror.canonicalize, Mirror.contains,
    UInt32.add_zero, Bool.and_eq_true, decide_eq_true_eq, UInt32.le_iff_toNat_le,
    UInt32.lt_iff_toNat_lt, UInt32.toNat_sub, UInt32.reduceToNat]
  split
  · rw [UInt32.toNat_sub]
    simp only [UInt32.reduceToNat]
    omega
  · omega

/-- Every address shows a cell of the one range. -/
theorem liesIn_halfSpace {accepts : RangeKind → Bool} {kind : RangeKind}
    (accepted : accepts kind = true) (address : UInt32) :
    (halfSpace kind).liesIn accepts address = true := by
  have ranges : (halfSpace kind).ranges = [⟨kind, 0, 0x7fffffff, "memory"⟩] := rfl
  have bound := toNat_canonical_halfSpace kind address
  have first := toNat_canonical_halfSpace kind 0
  have last := toNat_canonical_halfSpace kind 0x7fffffff
  simp only [AddressSpace.liesIn, ranges, List.any_cons, List.any_nil, Bool.or_false, accepted,
    Bool.true_and, Bool.and_eq_true, decide_eq_true_eq, UInt32.le_iff_toNat_le, bound, first, last,
    UInt32.reduceToNat]
  omega

section HalfFilled

variable {kind : RangeKind} {bytes : Array UInt8} (full : bytes.size = 0x80000000)

include full

theorem readable_halfSpace_iff (cursor : UInt32) :
    Readable { space := halfSpace kind, bytes } cursor ↔
      cursor.toNat % 0x80000000 + 4 ≤ 0x80000000 := by
  rw [Readable, size, toNat_canonical_halfSpace, full]

variable {accepts : UInt32 → Bool}
  (accepted : ∀ cursor, Readable { space := halfSpace kind, bytes } cursor →
    accepts (wordAt { space := halfSpace kind, bytes } cursor) = true)

include accepted

/-- A table at `0` that accepts every word it finds goes around the address space forever. -/
theorem not_halts_halfSpace :
    ¬Halts { space := halfSpace kind, bytes } accepts 0 := by
  rw [not_halts_iff]
  intro n
  -- The cursors are multiples of four, so none of them comes to less than a word before the end.
  have readable : Readable { space := halfSpace kind, bytes } (cursorAt 0 n) := by
    rw [readable_halfSpace_iff full, cursorAt, UInt32.toNat_add, UInt32.toNat_mul]
    simp only [UInt32.reduceToNat]
    omega
  exact (hasEntry_iff _ _ _).mpr ⟨readable, accepted _ readable⟩

/-- Of a table at `1` the word that starts three bytes before the end is outside. -/
theorem leavesAt_halfSpace :
    LeavesAt { space := halfSpace kind, bytes } accepts 1 0x1fffffff := by
  have cursor {k : Nat} (low : k ≤ 0x1fffffff) : (cursorAt 1 k).toNat = 1 + 4 * k := by
    rw [cursorAt, UInt32.toNat_add, toNat_four_mul (by unfold runLimit; omega)]
    simp only [UInt32.reduceToNat]
    omega
  have readable (k : Nat) (earlier : k < 0x1fffffff) :
      Readable { space := halfSpace kind, bytes } (cursorAt 1 k) := by
    rw [readable_halfSpace_iff full, cursor (Nat.le_of_lt earlier)]
    omega
  refine ⟨readable, fun k earlier => accepted _ (readable k earlier), ?_⟩
  rw [readable_halfSpace_iff full, cursor (Nat.le_refl _)]
  decide

theorem run_halfSpace_one :
    run { space := halfSpace kind, bytes } accepts 1 =
      .error (.fault (.bounds 0x7ffffffd 0x80000000)) := by
  have start : (halfSpace kind).canonical 1 = 1 := by cases kind <;> decide
  refine run_eq_fault_iff.mpr ⟨0x1fffffff, ?_, ?_⟩
  · rw [start]
    exact leavesAt_halfSpace full accepted
  · rw [start, size, full]
    rfl

end HalfFilled

end Disassembly.Memory.Image
