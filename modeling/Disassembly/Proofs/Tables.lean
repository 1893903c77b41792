import Disassembly.Memory.Image
import Mathlib.Data.List.Nodup
import Mathlib.Data.List.Range
import Mathlib.Data.Nat.Find
import Mathlib.Tactic.ByContra

/-!
# Tables in the image

A table is read word by word from its canonical address on, and each word is judged when it is read.
The loop has no limit of its own: it goes on until a word cannot be read or is refused. `Scans` is
that loop, and a table whose loop never ends has no `Scans`. Cursors wrap around and repeat after
`runLimit` words, so a loop that has not ended by then never does. The reader with its limit
therefore gives what the loop gives, and reports a table without an end exactly if the loop has none
(`run_eq_endless_iff`).
-/

namespace Disassembly.Memory.Image

/-! ### Words -/

theorem word?_eq_none_iff (image : Image) (offset : Nat) :
    image.word? offset = none ↔ image.size < offset + 4 := by
  constructor
  · intro missing
    by_contra inside
    have bound : offset + 3 < image.bytes.size := by
      unfold size at inside
      omega
    simp only [word?, Array.getElem?_eq_getElem bound,
      Array.getElem?_eq_getElem (show offset + 2 < image.bytes.size by omega),
      Array.getElem?_eq_getElem (show offset + 1 < image.bytes.size by omega),
      Array.getElem?_eq_getElem (show offset < image.bytes.size by omega)] at missing
    cases missing
  · intro outside
    -- The last byte is missing, whatever there is of the others.
    have last : image.bytes[offset + 3]? = none := by
      rw [Array.getElem?_eq_none_iff]
      unfold size at outside
      omega
    simp only [word?, last]
    cases image.bytes[offset]? <;> cases image.bytes[offset + 1]? <;>
      cases image.bytes[offset + 2]? <;> rfl

theorem readWord_eq_error_iff (image : Image) (cursor : UInt32) (fault : Fault) :
    image.readWord cursor = .error fault ↔
      image.size < (image.space.canonical cursor).toNat + 4 ∧
        fault = .bounds cursor image.size := by
  rw [← word?_eq_none_iff, readWord]
  cases image.word? (image.space.canonical cursor).toNat with
  | none => simp [eq_comm]
  | some word => simp

/-- The number that four bytes denote, most significant byte first. -/
def bigEndian (image : Image) (offset : Nat) : UInt32 :=
  let byte (k : Nat) := (image.bytes.getD (offset + k) 0).toNat
  UInt32.ofNat (((byte 0 * 256 + byte 1) * 256 + byte 2) * 256 + byte 3)

theorem shiftLeft_or_eq {x y z w : Nat} (hy : y < 256) (hz : z < 256) (hw : w < 256) :
    x <<< 24 ||| y <<< 16 ||| z <<< 8 ||| w = ((x * 256 + y) * 256 + z) * 256 + w := by
  have step (a : Nat) {b : Nat} (small : b < 256) : a <<< 8 ||| b = a * 256 + b := by
    rw [← Nat.shiftLeft_add_eq_or_of_lt small, Nat.shiftLeft_eq]
  have x24 : x <<< 24 = ((x <<< 8) <<< 8) <<< 8 := by simp [Nat.shiftLeft_eq]; omega
  have y16 : y <<< 16 = (y <<< 8) <<< 8 := by simp [Nat.shiftLeft_eq]; omega
  rw [x24, y16, ← Nat.shiftLeft_or_distrib, ← Nat.shiftLeft_or_distrib, ← Nat.shiftLeft_or_distrib,
    step x hy, step _ hz, step _ hw]

theorem join_bytes (b0 b1 b2 b3 : UInt8) :
    (b0.toUInt32 <<< 24) ||| (b1.toUInt32 <<< 16) ||| (b2.toUInt32 <<< 8) ||| b3.toUInt32 =
      UInt32.ofNat (((b0.toNat * 256 + b1.toNat) * 256 + b2.toNat) * 256 + b3.toNat) := by
  have h0 := b0.toNat_lt
  have h1 := b1.toNat_lt
  have h2 := b2.toNat_lt
  have h3 := b3.toNat_lt
  have fits : ((b0.toNat * 256 + b1.toNat) * 256 + b2.toNat) * 256 + b3.toNat < UInt32.size := by
    change _ < 4294967296
    omega
  have shifted {n : Nat} (k : Nat) (byte : n < 2 ^ 8) (low : k ≤ 24) :
      n <<< k % 2 ^ 32 = n <<< k := by
    apply Nat.mod_eq_of_lt
    calc n <<< k = n * 2 ^ k := Nat.shiftLeft_eq n k
      _ < 2 ^ 8 * 2 ^ k := (Nat.mul_lt_mul_right (Nat.two_pow_pos k)).mpr byte
      _ ≤ 2 ^ 8 * 2 ^ 24 := Nat.mul_le_mul_left _ (Nat.pow_le_pow_right (by decide) low)
  apply UInt32.toNat_inj.mp
  rw [UInt32.toNat_ofNat_of_lt' fits, ← shiftLeft_or_eq h1 h2 h3]
  simp only [UInt32.toNat_or, UInt32.toNat_shiftLeft, UInt8.toNat_toUInt32]
  change b0.toNat <<< 24 % 2 ^ 32 ||| b1.toNat <<< 16 % 2 ^ 32 ||| b2.toNat <<< 8 % 2 ^ 32 |||
    b3.toNat = _
  rw [shifted 24 h0 (by decide), shifted 16 h1 (by decide), shifted 8 h2 (by decide)]

theorem word?_of_le {image : Image} {offset : Nat} (inside : offset + 4 ≤ image.size) :
    image.word? offset = some (image.bigEndian offset) := by
  have read (k : Nat) (small : k < 4) :
      image.bytes[offset + k]? = some (image.bytes.getD (offset + k) 0) := by
    have bound : offset + k < image.bytes.size := by
      unfold size at inside
      omega
    simp [bound]
  have first : image.bytes[offset]? = some (image.bytes.getD (offset + 0) 0) := read 0 (by omega)
  simp only [word?, first, read 1 (by omega), read 2 (by omega), read 3 (by omega),
    Option.bind_eq_bind, Option.bind_some, Option.pure_def, join_bytes]
  rfl

/-! ### Cursors -/

/-- The cursor after a number of words. Cursors wrap around. -/
def cursorAt (start : UInt32) (n : Nat) : UInt32 :=
  start + 4 * UInt32.ofNat n

@[simp] theorem cursorAt_zero (start : UInt32) : cursorAt start 0 = start :=
  UInt32.add_zero start

theorem cursorAt_succ (start : UInt32) (n : Nat) :
    cursorAt start (n + 1) = cursorAt (start + 4) n := by
  rw [cursorAt, cursorAt, UInt32.ofNat_add, UInt32.mul_add, UInt32.add_assoc, UInt32.add_comm 4]
  rfl

/-- Cursors repeat after one turn around the address space. -/
theorem cursorAt_add_runLimit (start : UInt32) (n : Nat) :
    cursorAt start (n + runLimit) = cursorAt start n := by
  have turn : 4 * UInt32.ofNat runLimit = 0 := by decide
  rw [cursorAt, cursorAt, UInt32.ofNat_add, UInt32.mul_add, turn, UInt32.add_zero]

theorem toNat_four_mul {n : Nat} (low : n < runLimit) : (4 * UInt32.ofNat n).toNat = 4 * n := by
  unfold runLimit at low
  rw [UInt32.toNat_mul, UInt32.toNat_ofNat_of_lt' (show n < 4294967296 by omega)]
  change 4 * n % 4294967296 = 4 * n
  omega

theorem eq_of_cursorAt_eq {start : UInt32} {m n : Nat} (hm : m < runLimit) (hn : n < runLimit)
    (same : cursorAt start m = cursorAt start n) : m = n := by
  have distances := congrArg UInt32.toNat (UInt32.add_right_inj start |>.mp same)
  rw [toNat_four_mul hm, toNat_four_mul hn] at distances
  omega

/-- Every address with the alignment of the start is a cursor. -/
theorem exists_cursorAt_eq {start address : UInt32}
    (aligned : address.toNat % 4 = start.toNat % 4) : ∃ n, cursorAt start n = address := by
  have distance := UInt32.toNat_sub address start
  have bound := (address - start).toNat_lt
  have startBound := start.toNat_lt
  have low : (address - start).toNat / 4 < runLimit := by
    unfold runLimit
    omega
  refine ⟨(address - start).toNat / 4, ?_⟩
  -- The distance is a multiple of four, also where it goes around the end of the address space.
  have whole : 4 * UInt32.ofNat ((address - start).toNat / 4) = address - start := by
    apply UInt32.toNat_inj.mp
    rw [toNat_four_mul low]
    omega
  rw [cursorAt, whole, UInt32.add_comm, UInt32.sub_add_cancel]

/-! ### Entries -/

/-- All four bytes of the word at a cursor are in the image. -/
def Readable (image : Image) (cursor : UInt32) : Prop :=
  (image.space.canonical cursor).toNat + 4 ≤ image.size

instance (image : Image) (cursor : UInt32) : Decidable (image.Readable cursor) :=
  inferInstanceAs (Decidable (_ ≤ _))

def wordAt (image : Image) (cursor : UInt32) : UInt32 :=
  image.bigEndian (image.space.canonical cursor).toNat

theorem readWord_of_readable {image : Image} {cursor : UInt32} (readable : image.Readable cursor) :
    image.readWord cursor = .ok (image.wordAt cursor) := by
  rw [readWord, word?_of_le readable]
  rfl

theorem readWord_of_not_readable {image : Image} {cursor : UInt32}
    (outside : ¬image.Readable cursor) :
    image.readWord cursor = .error (.bounds cursor image.size) :=
  (image.readWord_eq_error_iff cursor _).mpr ⟨Nat.lt_of_not_le outside, rfl⟩

/-- A word that is in the image and belongs to a table. -/
def HasEntry (image : Image) (accepts : UInt32 → Bool) (cursor : UInt32) : Prop :=
  ∃ word, image.readWord cursor = .ok word ∧ accepts word = true

theorem hasEntry_iff (image : Image) (accepts : UInt32 → Bool) (cursor : UInt32) :
    image.HasEntry accepts cursor ↔
      image.Readable cursor ∧ accepts (image.wordAt cursor) = true := by
  by_cases readable : image.Readable cursor
  · simp [HasEntry, readWord_of_readable readable, readable]
  · simp [HasEntry, readWord_of_not_readable readable, readable]

/-- The first word that is not an entry. -/
structure StopsAt (image : Image) (accepts : UInt32 → Bool) (start : UInt32) (n : Nat) : Prop where
  entries : ∀ k < n, image.HasEntry accepts (cursorAt start k)
  stop : ¬image.HasEntry accepts (cursorAt start n)

section Stopping

variable {image : Image} {accepts : UInt32 → Bool} {start : UInt32} {m n : Nat}

namespace StopsAt

theorem unique (left : image.StopsAt accepts start m) (right : image.StopsAt accepts start n) :
    m = n := by
  rcases Nat.lt_trichotomy m n with before | same | after
  · exact absurd (right.entries m before) left.stop
  · exact same
  · exact absurd (left.entries n after) right.stop

theorem lt_runLimit (stops : image.StopsAt accepts start n) : n < runLimit := by
  by_contra later
  obtain ⟨m, rfl⟩ : ∃ m, n = m + runLimit := ⟨n - runLimit, by omega⟩
  have positive : 0 < runLimit := by decide
  -- One turn before, the same word was an entry.
  apply stops.stop
  rw [cursorAt_add_runLimit]
  exact stops.entries m (by omega)

theorem succ_iff :
    image.StopsAt accepts start (n + 1) ↔
      image.HasEntry accepts start ∧ image.StopsAt accepts (start + 4) n := by
  constructor
  · intro stops
    have first := stops.entries 0 (by omega)
    rw [cursorAt_zero] at first
    refine ⟨first, ⟨fun k earlier => ?_, ?_⟩⟩
    · rw [← cursorAt_succ]
      exact stops.entries (k + 1) (by omega)
    · rw [← cursorAt_succ]
      exact stops.stop
  · rintro ⟨first, stops⟩
    refine ⟨fun k earlier => ?_, ?_⟩
    · cases k with
      | zero => rwa [cursorAt_zero]
      | succ k =>
        rw [cursorAt_succ]
        exact stops.entries k (by omega)
    · rw [cursorAt_succ]
      exact stops.stop

end StopsAt

theorem exists_stopsAt (missing : ¬image.HasEntry accepts (cursorAt start n)) :
    ∃ m, image.StopsAt accepts start m := by
  classical
  have later : ∃ k, ¬image.HasEntry accepts (cursorAt start k) := ⟨n, missing⟩
  refine ⟨Nat.find later, fun k before => ?_, Nat.find_spec later⟩
  exact not_not.mp (Nat.find_min later before)

end Stopping

/-! ### The loop -/

/-- Reading words from a cursor on without a limit: the cursors at which a word is read, and the
result. A loop that goes on forever has neither. -/
inductive Scans (image : Image) (accepts : UInt32 → Bool) :
    UInt32 → List UInt32 → Except NoValue (List UInt32) → Prop
  | outside {cursor : UInt32} {fault : Fault} (failed : image.readWord cursor = .error fault) :
    Scans image accepts cursor [cursor] (.error (.fault fault))
  | refused {cursor word : UInt32} (read : image.readWord cursor = .ok word)
    (refused : accepts word = false) : Scans image accepts cursor [cursor] (.ok [])
  | entry {cursor word : UInt32} {visited : List UInt32} {result : Except NoValue (List UInt32)}
    (read : image.readWord cursor = .ok word) (accepted : accepts word = true)
    (rest : Scans image accepts (cursor + 4) visited result) :
    Scans image accepts cursor (cursor :: visited) (result.map (word :: ·))

/-- The cursors of the first words from a start on. -/
def cursorsFrom (start : UInt32) (n : Nat) : List UInt32 :=
  (List.range n).map (cursorAt start)

/-- The first words from a start on. -/
def wordsFrom (image : Image) (start : UInt32) (n : Nat) : List UInt32 :=
  (cursorsFrom start n).map image.wordAt

/-- What reading gives if word `n` is the first that is not an entry. -/
def outcome (image : Image) (start : UInt32) (n : Nat) : Except NoValue (List UInt32) :=
  if image.Readable (cursorAt start n) then .ok (image.wordsFrom start n)
  else .error (.fault (.bounds (cursorAt start n) image.size))

theorem cursorsFrom_succ (start : UInt32) (n : Nat) :
    cursorsFrom start (n + 1) = start :: cursorsFrom (start + 4) n := by
  simp [cursorsFrom, List.range_succ_eq_map, Function.comp_def, cursorAt_succ]

theorem nodup_cursorsFrom {start : UInt32} {n : Nat} (low : n ≤ runLimit) :
    (cursorsFrom start n).Nodup := by
  apply List.nodup_range.map_on
  intro j hj k hk same
  rw [List.mem_range] at hj hk
  exact eq_of_cursorAt_eq (by omega) (by omega) same

@[simp] theorem length_wordsFrom (image : Image) (start : UInt32) (n : Nat) :
    (image.wordsFrom start n).length = n := by
  simp [wordsFrom, cursorsFrom]

theorem outcome_succ (image : Image) (start : UInt32) (n : Nat) :
    image.outcome start (n + 1) =
      (image.outcome (start + 4) n).map (image.wordAt start :: ·) := by
  have words : image.wordsFrom start (n + 1) =
      image.wordAt start :: image.wordsFrom (start + 4) n := by
    rw [wordsFrom, cursorsFrom_succ, List.map_cons, wordsFrom]
  rw [outcome, outcome, cursorAt_succ, words]
  split <;> rfl

section Loop

variable {image : Image} {accepts : UInt32 → Bool} {start address : UInt32} {n : Nat}
  {visited : List UInt32} {result : Except NoValue (List UInt32)}

theorem Scans.exists_stopsAt (scan : image.Scans accepts start visited result) :
    ∃ n, image.StopsAt accepts start n := by
  induction scan with
  | outside failed =>
    refine ⟨0, nofun, ?_⟩
    rintro ⟨word, read, -⟩
    rw [cursorAt_zero, failed] at read
    cases read
  | refused read refused =>
    refine ⟨0, nofun, ?_⟩
    rintro ⟨word, again, accepted⟩
    rw [cursorAt_zero, read] at again
    cases again
    simp [refused] at accepted
  | entry read accepted _ ih =>
    obtain ⟨n, stops⟩ := ih
    exact ⟨n + 1, StopsAt.succ_iff.mpr ⟨⟨_, read, accepted⟩, stops⟩⟩

/-- The loop ends if some word is not an entry, and visits the cursors up to the first such word. -/
theorem StopsAt.scans (stops : image.StopsAt accepts start n) :
    image.Scans accepts start (cursorsFrom start (n + 1)) (image.outcome start n) := by
  induction n generalizing start with
  | zero =>
    have stop := stops.stop
    rw [cursorAt_zero, hasEntry_iff] at stop
    have one : cursorsFrom start 1 = [start] := cursorsFrom_succ start 0
    -- The first word is no entry: it is refused, or there is none.
    rw [one, outcome, cursorAt_zero]
    split
    · next readable =>
      exact .refused (readWord_of_readable readable) (by simpa [readable] using stop)
    · next outside => exact .outside (readWord_of_not_readable outside)
  | succ n ih =>
    obtain ⟨first, rest⟩ := succ_iff.mp stops
    obtain ⟨readable, accepted⟩ := (image.hasEntry_iff accepts start).mp first
    rw [cursorsFrom_succ, outcome_succ]
    exact .entry (readWord_of_readable readable) accepted (ih rest)

/-- A limit that the loop does not reach changes nothing. -/
theorem Scans.runFrom_eq (scan : image.Scans accepts start visited result) (taken : List UInt32)
    (spare : Nat) :
    image.runFrom accepts taken (spare + visited.length) start =
      result.map (taken.reverse ++ ·) := by
  -- The reader holds the entries it has taken in reverse, so every step puts one in front.
  induction scan generalizing taken with
  | outside failed => simp [runFrom, failed, Except.map]
  | refused read refused => simp [runFrom, read, refused, Except.map]
  | @entry cursor word visited result read accepted _ ih =>
    rw [List.length_cons, ← Nat.add_assoc, runFrom]
    simp only [read, accepted, if_true]
    rw [ih (word :: taken)]
    cases result <;> simp [Except.map]

/-- Reading a table gives what the loop gives, if the loop ends. -/
theorem StopsAt.run_eq (stops : image.StopsAt accepts (image.space.canonical address) n) :
    image.run accepts address = image.outcome (image.space.canonical address) n := by
  have enough := stops.lt_runLimit
  have limit : runLimit = runLimit - (n + 1) +
      (cursorsFrom (image.space.canonical address) (n + 1)).length := by
    simp only [cursorsFrom, List.length_map, List.length_range]
    omega
  rw [run, limit, stops.scans.runFrom_eq]
  cases image.outcome (image.space.canonical address) n <;> rfl

/-- A loop that only finds entries uses up any limit. -/
theorem runFrom_of_hasEntry (entries : ∀ n, image.HasEntry accepts (cursorAt start n))
    (taken : List UInt32) (limit : Nat) :
    image.runFrom accepts taken limit start = .error .endless := by
  induction limit generalizing taken start with
  | zero => rfl
  | succ limit ih =>
    have first := entries 0
    rw [cursorAt_zero] at first
    obtain ⟨word, read, accepted⟩ := first
    have rest (n : Nat) : image.HasEntry accepts (cursorAt (start + 4) n) := by
      rw [← cursorAt_succ]
      exact entries (n + 1)
    simp only [runFrom, read, accepted, if_true]
    exact ih rest (word :: taken)

end Loop

/-! ### Tables without an end -/

/-- The loop from a cursor on comes to an end. -/
def Halts (image : Image) (accepts : UInt32 → Bool) (start : UInt32) : Prop :=
  ∃ visited result, image.Scans accepts start visited result

section Halting

variable {image : Image} {accepts : UInt32 → Bool} {start address : UInt32}

theorem halts_iff_exists_stopsAt :
    image.Halts accepts start ↔ ∃ n, image.StopsAt accepts start n := by
  constructor
  · rintro ⟨visited, result, scan⟩
    exact scan.exists_stopsAt
  · rintro ⟨n, stops⟩
    exact ⟨_, _, stops.scans⟩

theorem not_halts_iff :
    ¬image.Halts accepts start ↔ ∀ n, image.HasEntry accepts (cursorAt start n) := by
  rw [halts_iff_exists_stopsAt]
  constructor
  · intro endless n
    by_contra missing
    exact endless (exists_stopsAt missing)
  · rintro entries ⟨n, stops⟩
    exact stops.stop (entries n)

/-- The limit of the reader is reached exactly by the tables that have no end. -/
theorem run_eq_endless_iff :
    image.run accepts address = .error .endless ↔
      ¬image.Halts accepts (image.space.canonical address) := by
  constructor
  · intro endless halts
    obtain ⟨n, stops⟩ := halts_iff_exists_stopsAt.mp halts
    -- What a loop gives that ends is a list or a fault.
    rw [stops.run_eq, outcome] at endless
    split at endless <;> cases endless
  · intro endless
    exact runFrom_of_hasEntry (not_halts_iff.mp endless) [] runLimit

end Halting

/-! ### Where a table ends -/

/-- The table has its first `n` words as entries, and the next word, which can be read too, is
none. -/
structure EndsAt (image : Image) (accepts : UInt32 → Bool) (start : UInt32) (n : Nat) : Prop where
  readable : ∀ k ≤ n, image.Readable (cursorAt start k)
  accepted : ∀ k < n, accepts (image.wordAt (cursorAt start k)) = true
  refused : accepts (image.wordAt (cursorAt start n)) = false

/-- The table has its first `n` words as entries, and the next word cannot be read. -/
structure LeavesAt (image : Image) (accepts : UInt32 → Bool) (start : UInt32) (n : Nat) : Prop where
  readable : ∀ k < n, image.Readable (cursorAt start k)
  accepted : ∀ k < n, accepts (image.wordAt (cursorAt start k)) = true
  outside : ¬image.Readable (cursorAt start n)

section Endings

variable {image : Image} {accepts : UInt32 → Bool} {start : UInt32} {n : Nat}

theorem endsAt_iff :
    image.EndsAt accepts start n ↔
      image.StopsAt accepts start n ∧ image.Readable (cursorAt start n) := by
  constructor
  · rintro ⟨readable, accepted, refused⟩
    refine ⟨⟨fun k earlier => ?_, ?_⟩, readable n (Nat.le_refl n)⟩
    · exact (image.hasEntry_iff accepts _).mpr ⟨readable k (by omega), accepted k earlier⟩
    · simp [hasEntry_iff, refused]
  · rintro ⟨⟨entries, stop⟩, last⟩
    have entry (k : Nat) (earlier : k < n) := (image.hasEntry_iff accepts _).mp (entries k earlier)
    refine ⟨fun k upTo => ?_, fun k earlier => (entry k earlier).2, ?_⟩
    · rcases Nat.lt_or_eq_of_le upTo with earlier | rfl
      · exact (entry k earlier).1
      · exact last
    · simpa [hasEntry_iff, last] using stop

theorem leavesAt_iff :
    image.LeavesAt accepts start n ↔
      image.StopsAt accepts start n ∧ ¬image.Readable (cursorAt start n) := by
  constructor
  · rintro ⟨readable, accepted, outside⟩
    refine ⟨⟨fun k earlier => ?_, ?_⟩, outside⟩
    · exact (image.hasEntry_iff accepts _).mpr ⟨readable k earlier, accepted k earlier⟩
    · simp [hasEntry_iff, outside]
  · rintro ⟨⟨entries, -⟩, outside⟩
    have entry (k : Nat) (earlier : k < n) := (image.hasEntry_iff accepts _).mp (entries k earlier)
    exact ⟨fun k earlier => (entry k earlier).1, fun k earlier => (entry k earlier).2, outside⟩

theorem endsAt_or_leavesAt_iff :
    image.EndsAt accepts start n ∨ image.LeavesAt accepts start n ↔
      image.StopsAt accepts start n := by
  rw [endsAt_iff, leavesAt_iff, ← and_or_left]
  exact and_iff_left (Classical.em _)

end Endings

/-- Reading a table fails exactly if the table leaves the image, and names the word outside. -/
theorem run_eq_fault_iff {image : Image} {accepts : UInt32 → Bool} {address : UInt32}
    {fault : Fault} :
    image.run accepts address = .error (.fault fault) ↔
      ∃ n, image.LeavesAt accepts (image.space.canonical address) n ∧
        fault = .bounds (cursorAt (image.space.canonical address) n) image.size := by
  simp only [leavesAt_iff]
  constructor
  · intro failed
    have halts : image.Halts accepts (image.space.canonical address) := by
      by_contra endless
      rw [run_eq_endless_iff.mpr endless] at failed
      cases failed
    obtain ⟨n, stops⟩ := halts_iff_exists_stopsAt.mp halts
    rw [stops.run_eq, outcome] at failed
    split at failed
    · cases failed
    · next outside =>
      cases failed
      exact ⟨n, ⟨stops, outside⟩, rfl⟩
  · rintro ⟨n, ⟨stops, outside⟩, rfl⟩
    rw [stops.run_eq, outcome, if_neg outside]

end Disassembly.Memory.Image
