import Disassembly.Config.Address
import Disassembly.Proofs.Operands
import Disassembly.Proofs.Readings

/-!
# Hexadecimal literals

Pseudo-code writes words as `0x` and hexadecimal digits. Addresses of the configuration and immediates
of the listing are read by two readers that share only the judgement of a single digit: one drops the
marker if there is one, allows a sign, and stops at the first digit that makes the number too large;
the other demands the marker and compares the number at the end. Both take every literal that is
printed for the word it was printed from.
-/

namespace Disassembly.Text

/-! ### Digits that are written -/

theorem length_padded {base width n : Nat} (many : 1 < base) (positive : 0 < width)
    (fits : n < base ^ width) : (padded base width n).length = width := by
  rw [padded, List.length_leftpad]
  exact Nat.max_eq_left ((Nat.length_toDigits_le_iff many positive).mpr fits)

theorem exists_digitChar_of_mem_toDigits {base n : Nat} (many : 1 < base) {c : Char}
    (member : c ∈ Nat.toDigits base n) : ∃ value < base, c = Nat.digitChar value := by
  induction n using Nat.strongRecOn with
  | ind n ih =>
    by_cases small : n < base
    · rw [Nat.toDigits_of_lt_base small] at member
      exact ⟨n, small, List.mem_singleton.mp member⟩
    · rw [Nat.toDigits_of_base_le many (by omega)] at member
      rcases List.mem_append.mp member with earlier | last
      · exact ih (n / base) (Nat.div_lt_self (by omega) many) earlier
      · exact ⟨n % base, Nat.mod_lt n (by omega), List.mem_singleton.mp last⟩

/-- Digits above nine are written in lower case, and zeros fill up. -/
theorem exists_digitChar_of_mem_padded {base width n : Nat} (many : 1 < base) {c : Char}
    (member : c ∈ padded base width n) : ∃ value < base, c = Nat.digitChar value := by
  rw [padded, List.leftpad] at member
  rcases List.mem_append.mp member with filled | digit
  · exact ⟨0, by omega, List.eq_of_mem_replicate filled⟩
  · exact exists_digitChar_of_mem_toDigits many digit

/-! ### Reading digits from the left -/

/-- Reading may be interrupted behind a numeral: what follows is read onto its number. -/
theorem readWordDigits_append {digits : List Char} {n : Nat} (numeral : Numeral 16 digits n)
    (fits : n < UInt32.size) (rest : List Char) :
    readWordDigits 0 (digits ++ rest) = readWordDigits n rest := by
  induction numeral generalizing rest with
  | @digit c value here =>
    simp [readWordDigits, hexDigit?_eq_some_iff.mpr here, fits]
  | @snoc text number c value before here ih =>
    -- No number on the way is larger than the last one.
    rw [List.append_assoc, List.singleton_append, ih (by omega)]
    simp [readWordDigits, hexDigit?_eq_some_iff.mpr here, fits]

theorem readWord_of_numeral {digits : List Char} {word : UInt32}
    (numeral : Numeral 16 digits word.toNat) : readWord digits = .ok word := by
  have unsigned : readWord digits = readWordDigits 0 digits := by
    unfold readWord
    split
    · exact absurd rfl numeral.ne_nil
    · -- The sign would have to be a digit.
      have digit := isHexDigit_iff.mpr (numeral.isDigit_of_mem List.mem_cons_self)
      cases digit
    · rfl
  have read := readWordDigits_append numeral word.toNat_lt_size []
  rw [List.append_nil] at read
  rw [unsigned, read, readWordDigits, UInt32.ofNat_toNat]

/-! ### Literals -/

/-- `0x` and the digits of a word. -/
inductive HexText : List Char → UInt32 → Prop where
  | intro {digits : List Char} {word : UInt32} (numeral : Numeral 16 digits word.toNat) :
      HexText ('0' :: 'x' :: digits) word

theorem hexText_padded (width : Nat) (word : UInt32) :
    HexText ("0x" ++ hexPadded width word.toNat).toList word := by
  have text : ("0x" ++ hexPadded width word.toNat).toList =
      '0' :: 'x' :: padded 16 width word.toNat := by
    simp [hexPadded]
  rw [text]
  exact .intro (numeral_padded (by decide) width word.toNat)

theorem HexText.mem_cases {text : List Char} {word : UInt32} (literal : HexText text word) {c : Char}
    (member : c ∈ text) : c = 'x' ∨ isHexDigit c = true := by
  obtain ⟨numeral⟩ := literal
  simp only [List.mem_cons] at member
  rcases member with rfl | rfl | digit
  · exact .inr rfl
  · exact .inl rfl
  · exact .inr (isHexDigit_iff.mpr (numeral.isDigit_of_mem digit))

theorem HexText.trim_eq {text : List Char} {word : UInt32} (literal : HexText text word) :
    trim text = text := by
  have solid (c : Char) (member : c ∈ text) : isBlank c = false := by
    rcases literal.mem_cases member with rfl | digit
    · decide
    · exact isBlank_of_isHexDigit digit
  apply IsTrimmed.trim_eq
  exact ⟨fun c starts => solid c (List.mem_of_head? starts),
    fun c ends => solid c (List.mem_of_getLast? ends)⟩

end Disassembly.Text

namespace Disassembly

open Text Isa

theorem Config.parseAddress_of_hexText {text : String} {word : UInt32}
    (literal : HexText text.toList word) : parseAddress text = .ok word := by
  rw [parseAddress, literal.trim_eq]
  generalize text.toList = characters at literal
  obtain ⟨numeral⟩ := literal
  rw [stripHexMarker, readWord_of_numeral numeral]

theorem Isa.Operand.immediate_of_hexText {text : List Char} {word : UInt32}
    (literal : HexText text word) : immediate text = .ok word.toInt32 := by
  obtain ⟨numeral⟩ := literal
  exact immediate_eq_ok_iff.mpr (.hex numeral)

/-- A literal behind a comma is an operand by itself, as it stands. -/
theorem Isa.Operand.pieces_append_hexText {text : List Char} {word : UInt32}
    (literal : HexText text word) (front : List Char) :
    pieces (front ++ ',' :: text) = pieces front ++ [text] := by
  have clear : ',' ∉ text := by
    intro member
    rcases literal.mem_cases member with marker | digit
    · cases marker
    · cases digit
  rw [pieces, split_append, split_of_not_mem clear, List.map_append, List.map_singleton,
    literal.trim_eq]
  rfl

namespace Pseudocode

/-- The hexadecimal literals of pseudo-code and the words they are printed for: a word, the low bits
of a number, an offset without leading zeros, and an upper half, which if it is zero is shown as a
single digit instead. -/
inductive Printed : String → UInt32 → Prop where
  | word (word : UInt32) : Printed (hexWord word) word
  | number (value : Int) : Printed (hexLiteral value) (UInt32.ofInt value)
  | offset (offset : UInt32) : Printed (hexShort offset.toNat) offset
  | upperHalf (k : Int32) (nonzero : k ≠ 0) : Printed (highText k) (k <<< 16).toUInt32

theorem Printed.hexText {text : String} {word : UInt32} (printed : Printed text word) :
    HexText text.toList word := by
  cases printed with
  | word => exact hexText_padded 8 word
  | number value => exact hexText_padded 8 (UInt32.ofInt value)
  | offset => exact hexText_padded 1 word
  | upperHalf k nonzero =>
    obtain ⟨digits, text, numeral⟩ := exists_numeral_highText nonzero
    rw [text]
    exact .intro numeral

theorem toNat_ofInt_word (value : Int) :
    ((UInt32.ofInt value).toNat : Int) = value % 0x100000000 := by
  rw [UInt32.ofInt, UInt32.toNat_ofNat']
  omega

theorem toInt_toInt32_ofInt_word (value : Int) :
    (UInt32.ofInt value).toInt32.toInt = value.bmod 0x100000000 := by
  have bits : (UInt32.ofInt value).toBitVec = BitVec.ofInt 32 value := by
    apply BitVec.eq_of_toNat_eq
    rw [BitVec.toNat_ofInt]
    have number := toNat_ofInt_word value
    change (UInt32.ofInt value).toNat = (value % 0x100000000).toNat
    omega
  calc (UInt32.ofInt value).toInt32.toInt
      = (BitVec.ofInt 32 value).toInt := congrArg BitVec.toInt bits
    _ = value.bmod 0x100000000 := BitVec.toInt_ofInt value

theorem toInt32_ofInt_toInt (i : Int32) : (UInt32.ofInt i.toInt).toInt32 = i := by
  rw [← Int32.toInt_inj, toInt_toInt32_ofInt_word]
  exact Int32.toInt_bmod_size i

theorem exists_digits_hexLiteral (value : Int) :
    ∃ digits, (hexLiteral value).toList = '0' :: 'x' :: digits ∧ digits.length = 8 ∧
      ∀ c ∈ digits, '0' ≤ c ∧ c ≤ '9' ∨ 'a' ≤ c ∧ c ≤ 'f' := by
  have fits : (UInt32.ofInt value).toNat < 16 ^ 8 := (UInt32.ofInt value).toNat_lt_size
  refine ⟨padded 16 8 (UInt32.ofInt value).toNat, toList_hexWord _,
    length_padded (by decide) (by decide) fits, ?_⟩
  have table : ∀ digit < 16, '0' ≤ Nat.digitChar digit ∧ Nat.digitChar digit ≤ '9' ∨
      'a' ≤ Nat.digitChar digit ∧ Nat.digitChar digit ≤ 'f' := by
    decide
  intro c member
  obtain ⟨digit, small, rfl⟩ := exists_digitChar_of_mem_padded (by decide) member
  exact table digit small

/-- Both readers of hexadecimal numbers invert the writer. Any number is written as `0x` and eight
lower-case digits, which are an address of the configuration and mean the number modulo `2 ^ 32`, and
which are an immediate and mean the signed word of the same bits. So a signed word is read back as
it is, and so is every literal of pseudo-code, as an address or as an operand in any place. -/
theorem hex_literals_read_back :
    (∀ value : Int,
      (∃ digits, (hexLiteral value).toList = '0' :: 'x' :: digits ∧ digits.length = 8 ∧
        ∀ c ∈ digits, '0' ≤ c ∧ c ≤ '9' ∨ 'a' ≤ c ∧ c ≤ 'f') ∧
      ∃ word, Config.parseAddress (hexLiteral value) = .ok word ∧
        (word.toNat : Int) = value % 0x100000000 ∧
        Isa.Operand.immediate (hexLiteral value).toList = .ok word.toInt32 ∧
        word.toInt32.toInt = value.bmod 0x100000000) ∧
    (∀ i : Int32, Isa.Operand.immediate (hexLiteral i.toInt).toList = .ok i) ∧
    ∀ text word, Printed text word →
      Config.parseAddress text = .ok word ∧
      Isa.Operand.immediate text.toList = .ok word.toInt32 ∧
      ∀ front, Isa.Operand.pieces (front ++ ',' :: text.toList) =
        Isa.Operand.pieces front ++ [text.toList] := by
  refine ⟨fun value => ⟨exists_digits_hexLiteral value, ?_⟩, fun i => ?_,
    fun text word printed => ?_⟩
  · have literal := (Printed.number value).hexText
    exact ⟨UInt32.ofInt value, Config.parseAddress_of_hexText literal, toNat_ofInt_word value,
      Isa.Operand.immediate_of_hexText literal, toInt_toInt32_ofInt_word value⟩
  · rw [Isa.Operand.immediate_of_hexText (Printed.number i.toInt).hexText, toInt32_ofInt_toInt]
  · have literal := printed.hexText
    exact ⟨Config.parseAddress_of_hexText literal, Isa.Operand.immediate_of_hexText literal,
      Isa.Operand.pieces_append_hexText literal⟩

/-- A number that is smaller than every signed word, and an upper half. -/
theorem hex_literals_read_back_negative :
    hexLiteral (-0x100000004) = "0xfffffffc" ∧
      Config.parseAddress "0xfffffffc" = .ok 0xfffffffc ∧
      Isa.Operand.immediate "0xfffffffc".toList = .ok (-4) ∧
      Printed (highText 0x1c2) 0x01c20000 ∧
      Config.parseAddress (highText 0x1c2) = .ok 0x01c20000 := by
  obtain ⟨-, -, printed⟩ := hex_literals_read_back
  have text : hexLiteral (-0x100000004) = "0xfffffffc" := by decide
  obtain ⟨address, immediate, -⟩ := printed _ _ (.number (-0x100000004))
  rw [text] at address immediate
  have half : Printed (highText 0x1c2) 0x01c20000 := .upperHalf 0x1c2 (by decide)
  exact ⟨text, address, immediate, half, (printed _ _ half).1⟩

end Pseudocode

end Disassembly
