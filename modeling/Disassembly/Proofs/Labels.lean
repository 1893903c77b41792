import Disassembly.Proofs.Cutting
import Disassembly.Proofs.Numerals
import Disassembly.Proofs.Refusal

/-!
# What a numeric label says

A numeric label is a letter or two that say what is at an address, an underscore, and the canonical
address in at least six digits. The digits can be read back (`shownAddress?_numericLabel`), however
many there are, so labels of different canonical addresses differ. In the other direction everything
that a numeric label is made from is looked up at the canonical address. A label with a configured
name is another text only where a name is configured and no jump table starts.
-/

namespace Disassembly.Symbols

/-! ### Reading a numeric label -/

/-- The address that a numeric label shows behind its underscore. -/
def shownAddress? (label : String) : Option UInt32 :=
  Text.readHexWord? ((label.toList.dropWhile (· != '_')).drop 1)

/-- Digits are read back behind any marker, whatever their number. -/
theorem shownAddress?_append {marker : String} (plain : ∀ c ∈ marker.toList, (c != '_') = true)
    (width : Nat) (address : UInt32) :
    shownAddress? (marker ++ "_" ++ Text.hexPadded width address.toNat) = some address := by
  -- The marker holds no underscore, so the first one stands in front of the digits.
  have behind : ((marker ++ "_" ++ Text.hexPadded width address.toNat).toList.dropWhile
      (· != '_')) = '_' :: Text.padded 16 width address.toNat := by
    rw [String.toList_append, String.toList_append, List.append_assoc]
    simp only [Text.hexPadded, String.toList_ofList]
    apply Text.dropWhile_word plain
    rintro c ⟨⟩
    rfl
  rw [shownAddress?, behind, List.drop_succ_cons, List.drop_zero, Text.readHexWord?_eq_some_iff]
  exact Text.numeral_padded (by decide) width address.toNat

/-- What is at an address, in front of the underscore. -/
def marker (symbols : Symbols) (address : UInt32) : String :=
  if symbols.isJumpTable address then "jt"
  else if symbols.isFunction address then "fn"
  else "l"

theorem numericLabel_eq (symbols : Symbols) (address : UInt32) :
    symbols.numericLabel address =
      symbols.marker address ++ "_" ++ Text.hexPadded 6 (symbols.canonical address).toNat := by
  unfold numericLabel marker
  split
  · rfl
  · split <;> rfl

theorem shownAddress?_numericLabel (symbols : Symbols) (address : UInt32) :
    shownAddress? (symbols.numericLabel address) = some (symbols.canonical address) := by
  rw [numericLabel_eq]
  apply shownAddress?_append
  unfold marker
  split
  · simp
  · split <;> simp

/-! ### Labels and canonical addresses -/

theorem numericLabel_eq_iff (symbols : Symbols) (a b : UInt32) :
    symbols.numericLabel a = symbols.numericLabel b ↔ symbols.canonical a = symbols.canonical b := by
  constructor
  · intro same
    have shown := shownAddress?_numericLabel symbols a
    rw [same, shownAddress?_numericLabel] at shown
    exact (Option.some.inj shown).symm
  · intro same
    -- Jump tables and functions are looked up at the canonical address as well.
    unfold numericLabel isJumpTable isFunction
    rw [same]

theorem label_of_isJumpTable {symbols : Symbols} {address : UInt32}
    (table : symbols.isJumpTable address = true) :
    symbols.label address = symbols.numericLabel address := by
  rw [label, if_pos table]

theorem label_of_not_isJumpTable {symbols : Symbols} {address : UInt32}
    (other : symbols.isJumpTable address = false) :
    symbols.label address = (symbols.name? address).getD (symbols.numericLabel address) := by
  simp [label, other]

/-- The name for an address as it stands comes before the one for its canonical form. -/
theorem name?_eq_some_iff {symbols : Symbols} {address : UInt32} {name : String} :
    symbols.name? address = some name ↔
      symbols.annotations.labels[address]? = some name ∨
        symbols.annotations.labels[address]? = none ∧
          symbols.annotations.labels[symbols.canonical address]? = some name := by
  unfold name?
  cases symbols.annotations.labels[address]? <;> simp

theorem label_ne_numericLabel_iff (symbols : Symbols) (address : UInt32) :
    symbols.label address ≠ symbols.numericLabel address ↔
      symbols.isJumpTable address = false ∧
        ∃ name, symbols.name? address = some name ∧ name ≠ symbols.numericLabel address := by
  cases table : symbols.isJumpTable address with
  | true => simp [label_of_isJumpTable table]
  | false =>
    rw [label_of_not_isJumpTable table]
    cases symbols.name? address <;> simp

/-- Two addresses have the same numeric label exactly if they have the same canonical form. A label
differs from the numeric one exactly if no jump table is configured there and another name is, for
the address or, where it has none, for its canonical form. -/
theorem numericLabel_identifies_canonical (annotations : Annotations) (bytes : Array UInt8)
    (functions : Std.TreeSet UInt32) (symbols : Symbols)
    (built : Symbols.build annotations bytes functions = .ok symbols) :
    (∀ a b, symbols.numericLabel a = symbols.numericLabel b ↔
      annotations.space.canonical a = annotations.space.canonical b) ∧
    ∀ a, symbols.label a ≠ symbols.numericLabel a ↔
      (∀ seed ∈ annotations.tables.jumpTables,
        annotations.space.canonical seed ≠ annotations.space.canonical a) ∧
      ∃ name, name ≠ symbols.numericLabel a ∧
        (annotations.labels[a]? = some name ∨
          annotations.labels[a]? = none ∧
            annotations.labels[annotations.space.canonical a]? = some name) := by
  have space : symbols.annotations = annotations := by rw [Symbols.build_eq_ok built]
  have canonical (a : UInt32) : symbols.canonical a = annotations.space.canonical a := by
    rw [Symbols.canonical, Symbols.space, space]
  constructor
  · intro a b
    rw [numericLabel_eq_iff, canonical, canonical]
  · intro a
    have seeds := Program.mem_jumpTables_of_build built (annotations.space.canonical a)
    rw [Std.TreeSet.mem_toList, Std.TreeSet.mem_iff_contains, Program.IsJumpTable] at seeds
    simp only [label_ne_numericLabel_iff, name?_eq_some_iff, space, canonical, isJumpTable,
      ← Bool.not_eq_true, seeds, not_exists, not_and, ne_eq, and_comm]

/-- Memory far behind the first sixteen megabytes that also shows at `0x43080000`. A jump table is
configured in the window, and names for its canonical address and for one more. -/
def farAnnotations : Annotations where
  space := { mirror := some { start := 0x43080000, size := 0x100, canonical := 0x12345600 } }
  labels := .ofList [((0x12345610 : UInt32), "loop"), (0x12345620, "table")]
  tables := { jumpTables := [0x43080020] }

theorem numericLabel_identifies_canonical_far :
    ∃ symbols, Symbols.build farAnnotations #[] {} = .ok symbols ∧
      symbols.numericLabel 0x43080010 = symbols.numericLabel 0x12345610 ∧
      symbols.numericLabel 0x12345610 ≠ symbols.numericLabel 0x345610 ∧
      symbols.label 0x43080010 ≠ symbols.numericLabel 0x43080010 ∧
      symbols.label 0x12345620 = symbols.numericLabel 0x12345620 := by
  obtain ⟨symbols, built⟩ : ∃ symbols, Symbols.build farAnnotations #[] {} = .ok symbols :=
    ⟨_, rfl⟩
  obtain ⟨identifies, named⟩ := numericLabel_identifies_canonical farAnnotations #[] {} symbols built
  have loop : farAnnotations.labels[(0x12345610 : UInt32)]? = some "loop" := by decide +kernel
  have unnamed : farAnnotations.labels[(0x43080010 : UInt32)]? = none := by decide +kernel
  refine ⟨symbols, built, (identifies _ _).mpr (by decide), fun same => ?_, ?_, ?_⟩
  · exact absurd ((identifies _ _).mp same) (by decide)
  · apply (named 0x43080010).mpr
    refine ⟨?_, "loop", ?_, .inr ⟨unnamed, loop⟩⟩
    · intro seed configured
      cases List.mem_singleton.mp configured
      decide
    · cases built
      decide +kernel
  · -- A jump table shows no configured name.
    by_contra shown
    exact ((named 0x12345620).mp shown).1 0x43080020 (by decide) (by decide)

end Disassembly.Symbols
