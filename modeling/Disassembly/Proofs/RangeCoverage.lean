import Disassembly.Proofs.Mirror
import Disassembly.Proofs.SlotAdjacency
import Disassembly.Proofs.Runs

/-!
# Declared ranges and the window

Whether memory is executable, or may be pointed to, is asked of a canonical address, and a range
answers by the canonical forms of its two bounds. Canonical forms follow each other like the
addresses themselves, except at the seams of the address space: where the window starts, behind its
end, and where it comes to show address zero. A range that a seam cuts may get bounds that leave out
some of its addresses, or bounds in the wrong order, which leave out all of them. Between two seams
nothing happens, so the addresses at the seams decide (`forall_covers_iff_unbroken`).
-/

namespace Disassembly.Memory

/-- The addresses whose canonical form may not follow that of the address in front of them: the
first of the window, the first behind it, and the one that shows address zero. -/
def Mirror.seams (mirror : Mirror) : List UInt32 :=
  [mirror.start, mirror.start + mirror.size, mirror.start - mirror.canonical]

def AddressSpace.seams (space : AddressSpace) : List UInt32 :=
  match space.mirror with
  | some mirror => mirror.seams
  | none => []

/-- The canonical form of an address lies between those of the bounds of a range. -/
def Range.Covers (range : Range) (space : AddressSpace) (address : UInt32) : Prop :=
  space.canonical range.start ≤ space.canonical address ∧
    space.canonical address ≤ space.canonical range.last

/-- On both sides of every seam that cuts the range, canonical forms stay between those of the
bounds. -/
def Range.Unbroken (range : Range) (space : AddressSpace) : Prop :=
  ∀ seam ∈ space.seams, range.start < seam → seam ≤ range.last →
    space.canonical range.start ≤ space.canonical seam ∧
      space.canonical (seam - 1) ≤ space.canonical range.last

instance (range : Range) (space : AddressSpace) : Decidable (range.Unbroken space) :=
  List.decidableBAll _ space.seams

/-! ### From one address to the next -/

theorem toNat_succ {address : UInt32} (inside : address.toNat + 1 < UInt32.size) :
    (address + 1).toNat = address.toNat + 1 := by
  rw [UInt32.toNat_add]
  exact Nat.mod_eq_of_lt inside

theorem toNat_succ_of_ne_zero {address : UInt32} (positive : address + 1 ≠ 0) :
    (address + 1).toNat = address.toNat + 1 := by
  apply toNat_succ
  have bound := address.toNat_lt_size
  by_contra last
  have full : address.toNat + 1 = UInt32.size := by omega
  apply positive
  apply UInt32.toNat_inj.mp
  rw [UInt32.toNat_add]
  change (address.toNat + 1) % UInt32.size = 0
  rw [full, Nat.mod_self]

theorem Mirror.contains_eq_false_iff {mirror : Mirror} {address : UInt32} :
    mirror.contains address = false ↔
      address.toNat < mirror.start.toNat ∨
        mirror.start.toNat + mirror.size.toNat ≤ address.toNat := by
  rw [← Bool.not_eq_true, contains_iff]
  omega

/-- Away from the seams, canonical forms follow each other. -/
theorem Mirror.toNat_canonicalize_succ {mirror : Mirror} {address : UInt32}
    (inside : address.toNat + 1 < UInt32.size) (smooth : address + 1 ∉ mirror.seams) :
    (mirror.canonicalize (address + 1)).toNat = (mirror.canonicalize address).toNat + 1 := by
  have next := toNat_succ inside
  simp only [seams, List.mem_cons, List.not_mem_nil, or_false, not_or] at smooth
  obtain ⟨first, behind, zero⟩ := smooth
  cases here : mirror.contains address with
  | false =>
    cases there : mirror.contains (address + 1) with
    | false => rw [canonicalize_of_outside here, canonicalize_of_outside there, next]
    | true =>
      -- Only the first address of the window has one outside in front of it.
      have outside := contains_eq_false_iff.mp here
      have window := contains_iff.mp there
      exact absurd (UInt32.toNat_inj.mp (by omega)) first
  | true =>
    cases there : mirror.contains (address + 1) with
    | false =>
      -- Only the last one has an address outside behind it.
      have window := contains_iff.mp here
      have outside := contains_eq_false_iff.mp there
      have ends : (mirror.start + mirror.size).toNat = mirror.start.toNat + mirror.size.toNat := by
        rw [UInt32.toNat_add]
        exact Nat.mod_eq_of_lt (by change _ < UInt32.size; omega)
      exact absurd (UInt32.toNat_inj.mp (by omega)) behind
    | true =>
      have moved : mirror.canonicalize (address + 1) = mirror.canonicalize address + 1 := by
        rw [canonicalize_of_inside here, canonicalize_of_inside there]
        grind
      -- The second form is not zero, so the step does not wrap around.
      have positive : mirror.canonicalize address + 1 ≠ 0 := by
        rw [← moved, canonicalize_of_inside there]
        intro shown
        apply zero
        grind
      rw [moved, toNat_succ_of_ne_zero positive]

theorem AddressSpace.toNat_canonical_succ {space : AddressSpace} {address : UInt32}
    (inside : address.toNat + 1 < UInt32.size) (smooth : address + 1 ∉ space.seams) :
    (space.canonical (address + 1)).toNat = (space.canonical address).toNat + 1 := by
  unfold seams at smooth
  unfold canonical
  cases shown : space.mirror with
  | none => exact toNat_succ inside
  | some mirror =>
    rw [shown] at smooth
    exact Mirror.toNat_canonicalize_succ inside smooth

/-! ### Ranges -/

namespace Range

variable {range : Range} {space : AddressSpace}

theorem contains_iff {address : UInt32} :
    range.contains address = true ↔ range.start ≤ address ∧ address ≤ range.last := by
  simp [contains]

namespace Unbroken

theorem start_le (unbroken : range.Unbroken space) {address : UInt32}
    (above : range.start ≤ address) (below : address ≤ range.last) :
    space.canonical range.start ≤ space.canonical address := by
  rw [UInt32.le_iff_toNat_le] at above
  -- Upwards from the start of the range, over the distance to it.
  induction distance : address.toNat - range.start.toNat generalizing address with
  | zero =>
    have same : address = range.start := UInt32.toNat_inj.mp (by omega)
    rw [same]
    exact UInt32.le_refl _
  | succ n ih =>
    obtain ⟨before, rfl⟩ : ∃ before, address = before + 1 := ⟨address - 1, by grind⟩
    have positive : before + 1 ≠ 0 := by
      intro zero
      rw [zero] at distance
      change 0 - _ = n + 1 at distance
      omega
    have next := toNat_succ_of_ne_zero positive
    have bound := (before + 1).toNat_lt_size
    by_cases seam : before + 1 ∈ space.seams
    · exact (unbroken _ seam (UInt32.lt_iff_toNat_lt.mpr (by omega)) below).1
    · have step := AddressSpace.toNat_canonical_succ (by omega) seam
      rw [UInt32.le_iff_toNat_le] at below
      have earlier : space.canonical range.start ≤ space.canonical before :=
        ih (by omega) (UInt32.le_iff_toNat_le.mpr (by omega)) (by omega)
      rw [UInt32.le_iff_toNat_le] at earlier ⊢
      omega

theorem le_last (unbroken : range.Unbroken space) {address : UInt32}
    (above : range.start ≤ address) (below : address ≤ range.last) :
    space.canonical address ≤ space.canonical range.last := by
  rw [UInt32.le_iff_toNat_le] at below
  -- Downwards from the last address of the range.
  induction distance : range.last.toNat - address.toNat generalizing address with
  | zero =>
    have same : address = range.last := UInt32.toNat_inj.mp (by omega)
    rw [same]
    exact UInt32.le_refl _
  | succ n ih =>
    have bound := range.last.toNat_lt_size
    have next : (address + 1).toNat = address.toNat + 1 := toNat_succ (by omega)
    rw [UInt32.le_iff_toNat_le] at above
    by_cases seam : address + 1 ∈ space.seams
    · have crossed := (unbroken _ seam (UInt32.lt_iff_toNat_lt.mpr (by omega))
        (UInt32.le_iff_toNat_le.mpr (by omega))).2
      rwa [UInt32.add_sub_cancel] at crossed
    · have step := AddressSpace.toNat_canonical_succ (by omega) seam
      have later : space.canonical (address + 1) ≤ space.canonical range.last :=
        ih (UInt32.le_iff_toNat_le.mpr (by omega)) (by omega) (by omega)
      rw [UInt32.le_iff_toNat_le] at later ⊢
      omega

theorem covers (unbroken : range.Unbroken space) {address : UInt32}
    (inside : range.contains address = true) : range.Covers space address := by
  obtain ⟨above, below⟩ := contains_iff.mp inside
  exact ⟨unbroken.start_le above below, unbroken.le_last above below⟩

end Unbroken

/-- A range covers all of its addresses exactly if it does so at the seams. -/
theorem forall_covers_iff_unbroken :
    (∀ address, range.contains address = true → range.Covers space address) ↔
      range.Unbroken space := by
  constructor
  · intro covers seam _ above below
    -- Both neighbours of a seam that cuts the range are addresses of the range.
    have here : range.contains seam = true :=
      contains_iff.mpr ⟨UInt32.le_of_lt above, below⟩
    have before : range.contains (seam - 1) = true := by
      have positive := UInt32.lt_iff_toNat_lt.mp above
      have one : (seam - 1).toNat = seam.toNat - 1 :=
        UInt32.toNat_sub_of_le _ _ (UInt32.le_iff_toNat_le.mpr (by change 1 ≤ _; omega))
      rw [contains_iff, UInt32.le_iff_toNat_le, UInt32.le_iff_toNat_le, one]
      rw [UInt32.le_iff_toNat_le] at below
      omega
    exact ⟨(covers seam here).1, (covers (seam - 1) before).2⟩
  · exact fun unbroken address => unbroken.covers

/-! ### Ranges that the window does not cut -/

theorem unbroken_of_outside {mirror : Mirror} (shown : space.mirror = some mirror)
    (outside : ∀ address, range.contains address = true → mirror.contains address = false)
    (ordered : range.start ≤ range.last) : range.Unbroken space := by
  -- Outside the window, canonical forms are the addresses themselves.
  have fixed (address : UInt32) (inside : range.contains address = true) :
      space.canonical address = address := by
    rw [AddressSpace.canonical, shown]
    exact Mirror.canonicalize_of_outside (outside address inside)
  rw [← forall_covers_iff_unbroken]
  intro address inside
  rw [Covers, fixed address inside, fixed _ (contains_iff.mpr ⟨UInt32.le_refl _, ordered⟩),
    fixed _ (contains_iff.mpr ⟨ordered, UInt32.le_refl _⟩)]
  exact contains_iff.mp inside

/-- Inside the window, the memory that is shown must not pass the end of the address space. -/
theorem unbroken_of_inside {mirror : Mirror} (shown : space.mirror = some mirror)
    (inWindow : ∀ address, range.contains address = true → mirror.contains address = true)
    (ordered : range.start ≤ range.last)
    (ends : range.last.toNat - mirror.start.toNat + mirror.canonical.toNat < UInt32.size) :
    range.Unbroken space := by
  -- Inside it, all of them are moved by the same distance.
  have moved (address : UInt32) (inside : range.contains address = true) :
      (space.canonical address).toNat =
        address.toNat - mirror.start.toNat + mirror.canonical.toNat := by
    obtain ⟨-, below⟩ := contains_iff.mp inside
    rw [UInt32.le_iff_toNat_le] at below
    rw [AddressSpace.canonical, shown]
    exact (Mirror.toNat_canonicalize (inWindow address inside)).trans
      (Nat.mod_eq_of_lt (by omega))
  rw [← forall_covers_iff_unbroken]
  intro address inside
  rw [Covers, UInt32.le_iff_toNat_le, UInt32.le_iff_toNat_le, moved address inside,
    moved _ (contains_iff.mpr ⟨UInt32.le_refl _, ordered⟩),
    moved _ (contains_iff.mpr ⟨ordered, UInt32.le_refl _⟩)]
  obtain ⟨above, below⟩ := contains_iff.mp inside
  rw [UInt32.le_iff_toNat_le] at above below
  omega

end Range

/-! ### Questions about memory -/

namespace AddressSpace

variable {space : AddressSpace} {range : Range} {address : UInt32}

theorem unbroken_of_no_mirror (plain : space.mirror = none) : range.Unbroken space := by
  intro seam member
  simp [seams, plain] at member

theorem liesIn_iff {accepts : RangeKind → Bool} :
    space.liesIn accepts address = true ↔
      ∃ range ∈ space.ranges, accepts range.kind = true ∧ range.Covers space address := by
  simp [liesIn, Range.Covers, and_assoc]

/-- An unbroken range answers for all of its addresses. -/
theorem liesIn_of_unbroken {accepts : RangeKind → Bool} (declared : range ∈ space.ranges)
    (accepted : accepts range.kind = true) (unbroken : range.Unbroken space)
    (inside : range.contains address = true) : space.liesIn accepts address = true :=
  liesIn_iff.mpr ⟨range, declared, accepted, unbroken.covers inside⟩

/-- If no other range is asked, the range has to be unbroken for that. -/
theorem forall_liesIn_iff_unbroken {accepts : RangeKind → Bool} (declared : range ∈ space.ranges)
    (accepted : accepts range.kind = true)
    (alone : ∀ other ∈ space.ranges, accepts other.kind = true → other = range) :
    (∀ address, range.contains address = true → space.liesIn accepts address = true) ↔
      range.Unbroken space := by
  rw [← Range.forall_covers_iff_unbroken]
  constructor
  · intro found address inside
    -- Some range answers, and it can only be this one.
    obtain ⟨other, present, asked, covers⟩ := liesIn_iff.mp (found address inside)
    rwa [alone other present asked] at covers
  · intro covers address inside
    exact liesIn_iff.mpr ⟨range, declared, accepted, covers address inside⟩

/-- Questions are about canonical addresses. -/
theorem liesIn_canonical (accepts : RangeKind → Bool)
    (settled : space.canonical (space.canonical address) = space.canonical address) :
    space.liesIn accepts (space.canonical address) = space.liesIn accepts address := by
  simp only [liesIn, settled]

end AddressSpace

end Disassembly.Memory

namespace Disassembly.Listing

open Memory

/-- A line at an executable address is decoded, and is part of the listing if that succeeds. -/
theorem instructionOfLine?_of_isExecutable {space : AddressSpace} {line : List Char}
    {parsed : Line} (form : Line.parse? line = some parsed)
    (settled : space.canonical (space.canonical parsed.address) = space.canonical parsed.address)
    (executable : space.isExecutable parsed.address = true) :
    instructionOfLine? space line =
      (Instruction.decode (space.canonical parsed.address) parsed.mnemonic parsed.operands).map
        some := by
  have again : space.isExecutable (space.canonical parsed.address) = true := by
    rw [AddressSpace.isExecutable, AddressSpace.liesIn_canonical _ settled]
    exact executable
  simp [instructionOfLine?, form, again]

theorem exists_mem_of_isExecutable {space : AddressSpace} {text : String}
    {listing : List Instruction} (read : parse space text = .ok listing) {line : List Char}
    (member : line ∈ Text.lines text.toList) {parsed : Line} (form : Line.parse? line = some parsed)
    (settled : space.canonical (space.canonical parsed.address) = space.canonical parsed.address)
    (executable : space.isExecutable parsed.address = true) :
    ∃ i ∈ listing, Instruction.decode (space.canonical parsed.address) parsed.mnemonic
      parsed.operands = .ok i := by
  obtain ⟨rfl, succeed⟩ := parse_eq_filterMap read
  have outcome := succeed line member
  rw [instructionOfLine?_of_isExecutable form settled executable] at outcome
  -- No line failed, so this one was decoded.
  cases decoded : Instruction.decode (space.canonical parsed.address) parsed.mnemonic
      parsed.operands with
  | error fault =>
    rw [decoded] at outcome
    cases outcome
  | ok i =>
    rw [decoded] at outcome
    exact ⟨i, List.mem_filterMap.mpr ⟨line, member, (Except.ok.inj outcome).symm⟩, rfl⟩

end Disassembly.Listing

namespace Disassembly.Config

open Memory Listing

theorem RangeText.ordered_of_convert {entry : RangeText} {range : Range}
    (returned : entry.convert = .ok range) : range.start ≤ range.last := by
  unfold convert at returned
  split at returned
  · obtain ⟨start, -, returned⟩ := exists_of_bind_eq_ok returned
    obtain ⟨last, -, returned⟩ := exists_of_bind_eq_ok returned
    split at returned
    · cases returned
    · next ordered =>
      cases returned
      exact UInt32.not_lt.mp ordered
  · cases returned

/-- A range of a layout that is read does not end before it starts. -/
theorem ordered_of_parseLayout {source : Source} {space : AddressSpace} {range : Range}
    (accepted : parseLayout source = .ok space) (declared : range ∈ space.ranges) :
    range.start ≤ range.last := by
  obtain ⟨entry, -, converted⟩ := exists_of_bind_eq_ok (Source.located_eq_ok.mp accepted)
  obtain ⟨mirror, -, converted⟩ := exists_of_bind_eq_ok converted
  obtain ⟨ranges, read, converted⟩ := exists_of_bind_eq_ok converted
  cases converted
  obtain ⟨text, -, returned⟩ := exists_of_mem_mapM_eq_ok read declared
  exact text.ordered_of_convert returned

/-- A declared range covers all of its addresses exactly if it is unbroken, as it is if the window
does not cut it. Its addresses are then found in memory of its kind: lines there are decoded, and a
word that leads there ends no table. If no other range is of the kind, nothing less will do. -/
theorem declared_memory_found_iff_unbroken (source : Source) (space : AddressSpace) (range : Range)
    (accepted : parseLayout source = .ok space) (declared : range ∈ space.ranges) :
    ((∀ address, range.contains address = true → range.Covers space address) ↔
      range.Unbroken space) ∧
    (space.mirror = none → range.Unbroken space) ∧
    (∀ mirror, space.mirror = some mirror →
      ((∀ address, range.contains address = true → mirror.contains address = false) ∨
        (∀ address, range.contains address = true → mirror.contains address = true) ∧
          range.last.toNat - mirror.start.toNat + mirror.canonical.toNat < UInt32.size) →
      range.Unbroken space) ∧
    (∀ accepts : RangeKind → Bool, accepts range.kind = true →
      (∀ other ∈ space.ranges, accepts other.kind = true → other = range) →
      ((∀ address, range.contains address = true → space.liesIn accepts address = true) ↔
        range.Unbroken space)) ∧
    (range.Unbroken space → range.kind.isExecutable = true →
      ∀ address, range.contains address = true →
        space.isExecutable address = true ∧
        (space.canonical (space.canonical address) = space.canonical address →
          ∀ line parsed, Line.parse? line = some parsed → parsed.address = address →
            instructionOfLine? space line =
              (Instruction.decode (space.canonical address) parsed.mnemonic parsed.operands).map
                some ∧
            ∀ text listing, line ∈ Text.lines text.toList → parse space text = .ok listing →
              ∃ i ∈ listing, Instruction.decode (space.canonical address) parsed.mnemonic
                parsed.operands = .ok i) ∧
        ∀ (image : Image) start n, image.space = space →
          image.EndsAt image.space.isExecutable start n →
          image.wordAt (Image.cursorAt start n) ≠ address) ∧
    (range.Unbroken space → range.kind.isPointerTarget = true →
      ∀ address, range.contains address = true → space.isPointerTarget address = true) := by
  have ordered := ordered_of_parseLayout accepted declared
  refine ⟨Range.forall_covers_iff_unbroken, AddressSpace.unbroken_of_no_mirror, ?_, ?_, ?_, ?_⟩
  · rintro mirror shown (outside | ⟨inWindow, ends⟩)
    · exact Range.unbroken_of_outside shown outside ordered
    · exact Range.unbroken_of_inside shown inWindow ordered ends
  · exact fun accepts asked alone => AddressSpace.forall_liesIn_iff_unbroken declared asked alone
  · intro unbroken kind address inside
    have executable : space.isExecutable address = true :=
      AddressSpace.liesIn_of_unbroken declared kind unbroken inside
    refine ⟨executable, ?_, ?_⟩
    · rintro settled line parsed form rfl
      exact ⟨instructionOfLine?_of_isExecutable form settled executable,
        fun text listing member read =>
          exists_mem_of_isExecutable read member form settled executable⟩
    · -- A word that ends a table is refused by the same question.
      rintro image start n rfl ends rfl
      rw [ends.refused] at executable
      cases executable
  · exact fun unbroken kind address => AddressSpace.liesIn_of_unbroken declared kind unbroken

/-- Code that runs into the window, which shows memory above the code. -/
def continuedLayout : Source where
  content := .file "[[\"1000\",\"100\",\"8000\"],[[\"code\",\"f00\",\"107f\",\"code\"]]]".toUTF8

def continuedSpace : AddressSpace where
  ranges := [⟨.code, 0xf00, 0x107f, "code"⟩]
  mirror := some ⟨0x1000, 0x100, 0x8000⟩

theorem declared_memory_found_iff_unbroken_continued :
    parseLayout continuedLayout = .ok continuedSpace ∧
      Range.Unbroken ⟨.code, 0xf00, 0x107f, "code"⟩ continuedSpace ∧
      continuedSpace.isExecutable 0xf00 = true ∧ continuedSpace.isExecutable 0x1040 = true := by
  have accepted : parseLayout continuedLayout = .ok continuedSpace :=
    eq_ok_of_toOption (by decide +kernel)
  have unbroken : Range.Unbroken ⟨.code, 0xf00, 0x107f, "code"⟩ continuedSpace := by decide
  obtain ⟨-, -, -, -, found, -⟩ := declared_memory_found_iff_unbroken continuedLayout continuedSpace
    ⟨.code, 0xf00, 0x107f, "code"⟩ accepted (by decide)
  exact ⟨accepted, unbroken, (found unbroken rfl 0xf00 rfl).1, (found unbroken rfl 0x1040 rfl).1⟩

/-- Code that runs into the window, which shows memory below the code. -/
def straddlingLayout : Source where
  content := .file "[[\"1000\",\"100\",\"0\"],[[\"code\",\"f00\",\"107f\",\"code\"]]]".toUTF8

def straddlingSpace : AddressSpace where
  ranges := [⟨.code, 0xf00, 0x107f, "code"⟩]
  mirror := some ⟨0x1000, 0x100, 0⟩

/-- The canonical bounds of the code are in the wrong order, so none of it is executable, not even
the part in front of the window, and its lines are skipped. -/
theorem declared_code_skipped :
    ∃ space range, parseLayout straddlingLayout = .ok space ∧ range ∈ space.ranges ∧
      range.kind = .code ∧ range.contains 0xf00 = true ∧ space.canonical 0xf00 = 0xf00 ∧
      space.isExecutable 0xf00 = false ∧
      parse space "f00: 15 00 00 00 l.nop\n" = .ok [] := by
  refine ⟨straddlingSpace, ⟨.code, 0xf00, 0x107f, "code"⟩, eq_ok_of_toOption (by decide +kernel),
    by decide, rfl, rfl, rfl, rfl, eq_ok_of_toOption (by decide +kernel)⟩

end Disassembly.Config
