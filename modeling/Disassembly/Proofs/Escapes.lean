import Disassembly.Proofs.Numerals
import Disassembly.Proofs.ReadAhead
import Disassembly.Proofs.Runs
import Mathlib.Data.List.TakeWhile
import Mathlib.Data.Nat.Digits.Defs

/-!
# Escaped byte strings

Each byte of a string is written as a code of one, two or four characters (`Code`). A reader of
string literals knows from a code where it ends, whatever follows: a letter behind a backslash is the
last character, and three octal digits are as many as an escape may have. So the codes are read back
one by one (`readByte?_code`), and then the whole string (`readBytes_escaped`). A quote occurs in a
code behind its backslash only; the first one that is not escaped ends the literal, and literals in a
row are told apart (`literalRow_append_inj`).
-/

namespace Disassembly.Text

/-! ### Reading a string literal -/

/-- The byte that a letter behind a backslash stands for. -/
def letterByte? : Char → Option UInt8
  | 'a' => some 0x07
  | 'b' => some 0x08
  | 't' => some 0x09
  | 'n' => some 0x0a
  | 'v' => some 0x0b
  | 'f' => some 0x0c
  | 'r' => some 0x0d
  | '"' => some 0x22
  | '\\' => some 0x5c
  | _ => none

def octalDigit? (c : Char) : Option Nat :=
  (decimalDigit? c).filter (· < 8)

/-- The octal digits that a text starts with, three at most. -/
def octalDigits (text : List Char) : List Char :=
  (text.take 3).takeWhile fun c => (octalDigit? c).isSome

/-- Reads what follows a backslash: a letter, or one to three octal digits that denote a byte. -/
def readEscape? : List Char → Option (UInt8 × List Char)
  | [] => none
  | c :: rest =>
    match letterByte? c with
    | some byte => some (byte, rest)
    | none =>
      match readNumber? 8 octalDigit? (octalDigits (c :: rest)) with
      | some value =>
        if value < UInt8.size then
          some (UInt8.ofNat value, (c :: rest).drop (octalDigits (c :: rest)).length)
        else none
      | none => none

/-- Reads one byte of a literal. A quote or the end of the line ends the literal and is no byte. -/
def readByte? : List Char → Option (UInt8 × List Char)
  | [] => none
  | c :: rest =>
    if c = '\\' then readEscape? rest
    else if c = '"' ∨ c = '\n' ∨ 0x80 ≤ c.toNat then none
    else some (UInt8.ofNat c.toNat, rest)

theorem length_lt_of_readEscape? {text rest : List Char} {byte : UInt8}
    (read : readEscape? text = some (byte, rest)) : rest.length < text.length := by
  cases text with
  | nil => cases read
  | cons c behind =>
    simp only [readEscape?] at read
    split at read
    · cases read
      simp
    · split at read
      · next digits =>
        -- A number has a digit, so something was taken off.
        have someDigit : octalDigits (c :: behind) ≠ [] := by
          intro none
          rw [none] at digits
          cases digits
        have positive := List.length_pos_iff.mpr someDigit
        split at read
        · cases read
          simp only [List.length_drop, List.length_cons]
          omega
        · cases read
      · cases read

theorem length_lt_of_readByte? {text rest : List Char} {byte : UInt8}
    (read : readByte? text = some (byte, rest)) : rest.length < text.length := by
  cases text with
  | nil => cases read
  | cons c behind =>
    simp only [readByte?] at read
    split at read
    · have shorter := length_lt_of_readEscape? read
      simp only [List.length_cons]
      omega
    · split at read
      · cases read
      · cases read
        simp

/-- Reads bytes as long as there are any, and returns what is left. -/
def readBytes (text : List Char) : List UInt8 × List Char :=
  match _ : readByte? text with
  | none => ([], text)
  | some (byte, rest) => (readBytes rest).map (byte :: ·) id
termination_by text.length
decreasing_by exact length_lt_of_readByte? ‹_›

/-- The bytes that a text denotes between quotes. -/
def unescape? (text : List Char) : Option (List UInt8) :=
  match readBytes text with
  | (bytes, []) => some bytes
  | _ => none

/-- Reads a literal with its quotes, and returns what is left. -/
def readLiteral? : List Char → Option (List UInt8 × List Char)
  | '"' :: text =>
    match readBytes text with
    | (bytes, '"' :: rest) => some (bytes, rest)
    | _ => none
  | _ => none

/-! ### Codes -/

/-- The ways in which a byte is written. -/
inductive Code (byte : UInt8) : List Char → Prop
  | plain {c : Char} (printable : 0x20 ≤ c.toNat ∧ c.toNat ≤ 0x7e) (quote : c ≠ '"')
    (backslash : c ≠ '\\') (same : c.toNat = byte.toNat) : Code byte [c]
  | letter {c : Char} (known : letterByte? c = some byte) : Code byte ['\\', c]
  | octal {x y z : Char} (denotes : Numeral 8 [x, y, z] byte.toNat) : Code byte ['\\', x, y, z]

theorem letterByte?_of_shortEscape? {byte : UInt8} {letter : Char}
    (short : shortEscape? byte = some letter) : letterByte? letter = some byte := by
  unfold shortEscape? at short
  split at short
  case h_10 => cases short
  all_goals
    next same =>
      cases short
      simp only [letterByte?, Option.some.injEq]
      exact UInt8.toNat_inj.mp same.symm

theorem shortEscape?_quote_or_backslash {byte : UInt8}
    (sign : byte.toNat = 0x22 ∨ byte.toNat = 0x5c) : shortEscape? byte ≠ none := by
  unfold shortEscape?
  rcases sign with same | same <;> rw [same] <;> simp

/-- Three digits are enough for a byte and never too many. -/
theorem exists_octal_digits (byte : UInt8) :
    ∃ x y z, padded 8 3 byte.toNat = [x, y, z] ∧ Numeral 8 [x, y, z] byte.toNat := by
  have denotes : Numeral 8 (padded 8 3 byte.toNat) byte.toNat := numeral_padded (by decide) 3 _
  have few : (Nat.toDigits 8 byte.toNat).length ≤ 3 := by
    apply Nat.toDigits_length 8 byte.toNat 3 (by decide)
    have bound := byte.toNat_lt
    omega
  have three : (padded 8 3 byte.toNat).length = 3 := by
    rw [padded, List.length_leftpad]
    omega
  obtain ⟨x, y, z, same⟩ := List.length_eq_three.mp three
  rw [same] at denotes
  exact ⟨x, y, z, same, denotes⟩

theorem code_escapedByte (byte : UInt8) : Code byte (escapedByte byte) := by
  unfold escapedByte
  split
  · next letter short => exact .letter (letterByte?_of_shortEscape? short)
  · next long =>
    split
    · next printable =>
      have valid : byte.toNat.isValidChar := .inl (by omega)
      have same : (Char.ofNat byte.toNat).toNat = byte.toNat := by
        rw [Char.ofNat, dif_pos valid]
        rfl
      -- A byte that is written as it is has no escape, so it is neither of the two signs.
      refine .plain (by omega) ?_ ?_ same
      · intro quote
        exact shortEscape?_quote_or_backslash (.inl (by rw [← same, quote]; rfl)) long
      · intro backslash
        exact shortEscape?_quote_or_backslash (.inr (by rw [← same, backslash]; rfl)) long
    · obtain ⟨x, y, z, same, denotes⟩ := exists_octal_digits byte
      rw [same]
      exact .octal denotes

theorem mem_of_letterByte? {c : Char} {byte : UInt8} (known : letterByte? c = some byte) :
    c ∈ ['a', 'b', 't', 'n', 'v', 'f', 'r', '"', '\\'] := by
  unfold letterByte? at known
  split at known
  case h_10 => cases known
  all_goals simp

theorem octalDigit?_eq_some_iff {c : Char} {value : Nat} :
    octalDigit? c = some value ↔ IsDigit 8 c value := by
  rw [octalDigit?, Option.filter_eq_some_iff, decimalDigit?_eq_some_iff, IsDigit, IsDigit,
    decide_eq_true_eq]
  constructor
  · rintro ⟨⟨-, char⟩, small⟩
    exact ⟨small, char⟩
  · rintro ⟨small, char⟩
    exact ⟨⟨by omega, char⟩, small⟩

theorem toNat_of_isDigit_eight {c : Char} {value : Nat} (digit : IsDigit 8 c value) :
    48 ≤ c.toNat ∧ c.toNat ≤ 55 := by
  obtain ⟨small, rfl | rfl⟩ := digit
  · revert value
    decide
  · revert value
    decide

theorem toNat_of_mem_octal {digits : List Char} {n : Nat} (denotes : Numeral 8 digits n) {c : Char}
    (member : c ∈ digits) : 48 ≤ c.toNat ∧ c.toNat ≤ 55 := by
  obtain ⟨value, digit⟩ := denotes.isDigit_of_mem member
  exact toNat_of_isDigit_eight digit

theorem octalDigits_of_numeral {x y z : Char} {n : Nat} (denotes : Numeral 8 [x, y, z] n)
    (rest : List Char) : octalDigits (x :: y :: z :: rest) = [x, y, z] := by
  have taken : (x :: y :: z :: rest).take 3 = [x, y, z] := rfl
  rw [octalDigits, taken, List.takeWhile_eq_self_iff]
  intro c member
  obtain ⟨value, digit⟩ := denotes.isDigit_of_mem member
  rw [octalDigit?_eq_some_iff.mpr digit]
  rfl

/-- A code is read back as its byte, whatever follows it. -/
theorem readByte?_code {byte : UInt8} {text : List Char} (code : Code byte text)
    (rest : List Char) : readByte? (text ++ rest) = some (byte, rest) := by
  cases code with
  | @plain c printable quote backslash same =>
    have newline : c ≠ '\n' := by
      rintro rfl
      exact absurd printable.1 (by decide)
    have ascii : byte.toNat < 0x80 := by omega
    simp [readByte?, quote, backslash, newline, same, ascii]
  | letter known => simp [readByte?, readEscape?, known]
  | @octal x y z denotes =>
    have plain : letterByte? x = none := by
      cases known : letterByte? x with
      | none => rfl
      | some byte =>
        have digit := toNat_of_mem_octal denotes List.mem_cons_self
        have other := mem_of_letterByte? known
        simp only [List.mem_cons, List.not_mem_nil, or_false] at other
        rcases other with rfl | rfl | rfl | rfl | rfl | rfl | rfl | rfl | rfl <;>
          exact absurd digit (by decide)
    have read : readNumber? 8 octalDigit? [x, y, z] = some byte.toNat :=
      (readNumber?_eq_some_iff fun _ _ => octalDigit?_eq_some_iff).mpr denotes
    have small : byte.toNat < UInt8.size := byte.toNat_lt_size
    simp [readByte?, readEscape?, plain, octalDigits_of_numeral denotes, read, small]

/-! ### Strings -/

/-- A string is read back byte by byte, up to where no byte follows. -/
theorem readBytes_escaped (bytes : List UInt8) {rest : List Char} (ends : readByte? rest = none) :
    readBytes (bytes.flatMap escapedByte ++ rest) = (bytes, rest) := by
  induction bytes with
  | nil =>
    rw [List.flatMap_nil, List.nil_append, readBytes]
    split
    · rfl
    · next read =>
      rw [ends] at read
      cases read
  | cons byte bytes ih =>
    have first := readByte?_code (code_escapedByte byte) (bytes.flatMap escapedByte ++ rest)
    rw [List.flatMap_cons, List.append_assoc, readBytes]
    split
    · next read =>
      rw [first] at read
      cases read
    · next read =>
      rw [first] at read
      cases read
      rw [ih]
      rfl

theorem toList_escaped (bytes : List UInt8) :
    (escaped bytes).toList = bytes.flatMap escapedByte := by
  rw [escaped, String.toList_ofList]

theorem toList_literal (bytes : List UInt8) :
    (literal bytes).toList = '"' :: (bytes.flatMap escapedByte ++ ['"']) := by
  simp [literal, toList_escaped]

theorem unescape?_escaped (bytes : List UInt8) : unescape? (escaped bytes).toList = some bytes := by
  have read := readBytes_escaped bytes (show readByte? [] = none from rfl)
  rw [List.append_nil] at read
  rw [unescape?, toList_escaped, read]

theorem readLiteral?_literal (bytes : List UInt8) (rest : List Char) :
    readLiteral? ((literal bytes).toList ++ rest) = some (bytes, rest) := by
  have closes : readByte? ('"' :: rest) = none := by simp [readByte?]
  rw [toList_literal, List.cons_append, List.append_assoc, List.singleton_append, readLiteral?]
  simp only [readBytes_escaped bytes closes]

/-- A literal is no proper start of a text that starts with another literal. -/
theorem literal_append_inj {bytes other : List UInt8} {rest behind : List Char}
    (same : (literal bytes).toList ++ rest = (literal other).toList ++ behind) :
    bytes = other ∧ rest = behind := by
  have read := readLiteral?_literal bytes rest
  rw [same, readLiteral?_literal, Option.some.injEq, Prod.mk.injEq] at read
  exact ⟨read.1.symm, read.2.symm⟩

/-- The characters of a string are printable. -/
theorem printable_of_mem_escaped {bytes : List UInt8} {c : Char}
    (member : c ∈ (escaped bytes).toList) : 0x20 ≤ c.toNat ∧ c.toNat ≤ 0x7e := by
  rw [toList_escaped, List.mem_flatMap] at member
  obtain ⟨byte, -, member⟩ := member
  have backslash : 0x20 ≤ '\\'.toNat ∧ '\\'.toNat ≤ 0x7e := by decide
  generalize text : escapedByte byte = code at member
  have written := code_escapedByte byte
  rw [text] at written
  cases written with
  | plain printable =>
    cases List.mem_singleton.mp member
    exact printable
  | letter known =>
    have letters : ∀ c ∈ ['a', 'b', 't', 'n', 'v', 'f', 'r', '"', '\\'],
        0x20 ≤ c.toNat ∧ c.toNat ≤ 0x7e := by simp
    rcases List.mem_cons.mp member with rfl | member
    · exact backslash
    · cases List.mem_singleton.mp member
      exact letters c (mem_of_letterByte? known)
  | octal denotes =>
    rcases List.mem_cons.mp member with rfl | member
    · exact backslash
    · have digit := toNat_of_mem_octal denotes member
      omega

/-! ### Quotes -/

/-- Whether the character behind a text is escaped. From left to right, a backslash escapes the next
character unless it is escaped itself. -/
def escapesNext (text : List Char) : Bool :=
  text.foldl (fun escaped c => !escaped && c == '\\') false

theorem escapesNext_append {front : List Char} (idle : escapesNext front = false)
    (text : List Char) : escapesNext (front ++ text) = escapesNext text := by
  unfold escapesNext at idle ⊢
  rw [List.foldl_append, idle]

theorem not_escapesNext_code {byte : UInt8} {text : List Char} (code : Code byte text) :
    escapesNext text = false := by
  cases code with
  | plain printable quote backslash same => simp [escapesNext, backslash]
  | letter known => simp [escapesNext]
  | @octal x y z denotes =>
    have digit (c : Char) (member : c ∈ [x, y, z]) : c ≠ '\\' := by
      rintro rfl
      exact absurd (toNat_of_mem_octal denotes member) (by decide)
    simp [escapesNext, digit y (by simp), digit z (by simp)]

theorem escapesNext_before_quote_of_code {byte : UInt8} {front back : List Char}
    (code : Code byte (front ++ '"' :: back)) : escapesNext front = true := by
  generalize text : front ++ '"' :: back = written at code
  cases code with
  | @plain c printable quote backslash same =>
    -- The only character is not a quote.
    have member : '"' ∈ [c] := by
      rw [← text]
      simp
    exact absurd (List.mem_singleton.mp member).symm quote
  | @letter c known =>
    -- The backslash is no quote, so the quote is the letter.
    cases front with
    | nil => simp at text
    | cons first front =>
      rw [List.cons_append, List.cons.injEq] at text
      obtain ⟨rfl, text⟩ := text
      obtain ⟨rfl, -⟩ := List.append_eq_singleton_iff.mp text |>.resolve_right (by simp)
      rfl
  | @octal x y z denotes =>
    have member : '"' ∈ ['\\', x, y, z] := by
      rw [← text]
      simp
    rcases List.mem_cons.mp member with sign | digit
    · cases sign
    · exact absurd (toNat_of_mem_octal denotes digit) (by decide)

theorem not_escapesNext_escaped (bytes : List UInt8) :
    escapesNext (bytes.flatMap escapedByte) = false := by
  induction bytes with
  | nil => rfl
  | cons byte bytes ih =>
    rw [List.flatMap_cons, escapesNext_append (not_escapesNext_code (code_escapedByte byte)), ih]

/-- Every quote in a string is escaped. -/
theorem escapesNext_before_quote (bytes : List UInt8) {front back : List Char}
    (split : bytes.flatMap escapedByte = front ++ '"' :: back) : escapesNext front = true := by
  induction bytes generalizing front with
  | nil => simp at split
  | cons byte bytes ih =>
    have code := code_escapedByte byte
    rw [List.flatMap_cons] at split
    -- The quote stands behind the first code or in it.
    rcases List.append_eq_append_iff.mp split with ⟨later, rfl, rest⟩ | ⟨inside, first, rest⟩
    · rw [escapesNext_append (not_escapesNext_code code)]
      exact ih rest
    · cases inside with
      | nil =>
        -- A quote right behind a code starts the next one, and none starts so.
        rw [List.nil_append] at rest
        have opens : escapesNext [] = true := ih rest.symm
        cases opens
      | cons c inside =>
        cases rest
        rw [first] at code
        exact escapesNext_before_quote_of_code code

/-! ### Rows of literals -/

/-- Literals with a comma and a blank between them. -/
def literalRow (strings : List (List UInt8)) : List Char :=
  [',', ' '].intercalate (strings.map fun bytes => (literal bytes).toList)

theorem literalRow_nil : literalRow [] = [] := by
  simp [literalRow]

theorem literalRow_singleton (bytes : List UInt8) :
    literalRow [bytes] = (literal bytes).toList := by
  simp [literalRow]

theorem literalRow_cons_cons (bytes second : List UInt8) (others : List (List UInt8)) :
    literalRow (bytes :: second :: others) =
      (literal bytes).toList ++ ',' :: ' ' :: literalRow (second :: others) := by
  simp [literalRow, List.intercalate_cons_cons]

theorem head?_literalRow_cons (bytes : List UInt8) (others : List (List UInt8)) :
    (literalRow (bytes :: others)).head? = some '"' := by
  cases others with
  | nil => simp [literalRow_singleton, toList_literal]
  | cons second others => simp [literalRow_cons_cons, toList_literal]

/-- A row of literals ends where a bracket follows, and its literals are told apart. -/
theorem literalRow_append_inj {strings others : List (List UInt8)} {rest behind : List Char}
    (same : literalRow strings ++ ']' :: rest = literalRow others ++ ']' :: behind) :
    strings = others ∧ rest = behind := by
  -- A row that is not empty starts with a quote and not with the bracket.
  have apart (bytes : List UInt8) (row : List (List UInt8)) (left right : List Char) :
      literalRow [] ++ ']' :: left ≠ literalRow (bytes :: row) ++ right := by
    intro equal
    have heads := congrArg List.head? equal
    simp [head?_literalRow_cons, literalRow_nil] at heads
  induction strings generalizing others with
  | nil =>
    cases others with
    | nil => simpa [literalRow_nil] using same
    | cons other others => exact absurd same (apart other others rest _)
  | cons bytes strings ih =>
    cases others with
    | nil => exact absurd same.symm (apart bytes strings behind _)
    | cons other others =>
      cases strings with
      | nil =>
        cases others with
        | nil =>
          rw [literalRow_singleton, literalRow_singleton] at same
          obtain ⟨rfl, ends⟩ := literal_append_inj same
          simpa using ends
        | cons second others =>
          rw [literalRow_singleton, literalRow_cons_cons, List.append_assoc] at same
          cases (literal_append_inj same).2
      | cons first strings =>
        cases others with
        | nil =>
          rw [literalRow_singleton, literalRow_cons_cons, List.append_assoc] at same
          cases (literal_append_inj same).2
        | cons second others =>
          rw [literalRow_cons_cons, literalRow_cons_cons, List.append_assoc,
            List.append_assoc] at same
          obtain ⟨rfl, later⟩ := literal_append_inj same
          simp only [List.cons_append, List.cons.injEq, true_and] at later
          obtain ⟨tails, ends⟩ := ih later
          exact ⟨by rw [tails], ends⟩

end Disassembly.Text

namespace Disassembly.Symbols

open Memory Text

/-! ### String tables -/

/-- A value that is shown as the table of these strings. -/
structure ShowsTable (symbols : Symbols) (value : Int32) (strings : List (List UInt8)) : Prop where
  unnamed : symbols.annotations.registers[value.toUInt32]? = none
  declared : (symbols.space.classify value.toUInt32).isSome = true
  other : symbols.isJumpTable value.toUInt32 = false
  table : symbols.stringTable? value.toUInt32 = some (strings.map literal)

theorem ShowsTable.valueText_eq {symbols : Symbols} {value : Int32} {strings : List (List UInt8)}
    (shows : symbols.ShowsTable value strings) :
    symbols.valueText value = "C_STR_ARRAY [" ++ ", ".intercalate (strings.map literal) ++
      "] /* " ++ hexWord value.toUInt32 ++ " */" := by
  obtain ⟨unnamed, declared, other, table⟩ := shows
  obtain ⟨range, found⟩ := Option.isSome_iff_exists.mp declared
  unfold isJumpTable at other
  unfold stringTable? at table
  simp [valueText, unnamed, found, describe?, other, table]

theorem ShowsTable.strings_eq {symbols others : Symbols} {value shown : Int32}
    {strings further : List (List UInt8)} (shows : symbols.ShowsTable value strings)
    (showsToo : others.ShowsTable shown further)
    (same : symbols.valueText value = others.valueText shown) : strings = further := by
  have texts := congrArg String.toList same
  rw [shows.valueText_eq, showsToo.valueText_eq] at texts
  have row (strings : List (List UInt8)) :
      (", ".intercalate (strings.map literal)).toList = literalRow strings := by
    simp [literalRow, String.toList_intercalate, Function.comp_def]
  simp only [String.toList_append, List.append_assoc, List.append_cancel_left_eq, row] at texts
  exact (literalRow_append_inj texts).1

/-- The table at an address holds the strings that the words of the image point to. -/
theorem exists_pointers_of_build {annotations : Annotations} {bytes : Array UInt8}
    {functions : Std.TreeSet UInt32} {symbols : Symbols}
    (built : build annotations bytes functions = .ok symbols) {address : UInt32}
    {strings : List String} (found : symbols.stringTable? address = some strings) :
    ∃ seed ∈ annotations.tables.stringTables, ∃ pointers,
      symbols.canonical seed = symbols.canonical address ∧
      symbols.image.run symbols.image.pointsToString seed = .ok pointers ∧
      strings = (pointers.map symbols.image.cstring).map literal := by
  obtain ⟨seed, member, same, table⟩ := (stringTable?_eq_some_iff built).mp found
  rw [build_eq_ok built]
  rw [Image.stringTable_eq] at table
  cases run : Image.run _ _ seed with
  | error fault =>
    rw [run] at table
    cases table
  | ok pointers =>
    rw [run] at table
    cases table
    refine ⟨seed, member, pointers, same, run, ?_⟩
    rw [List.map_map]
    rfl

/-- Escaping loses nothing. The text of a byte string is printable, is read back as the same bytes,
and has no quote that is not escaped. So the literal of a string in the image ends at the first quote
that is not escaped, whatever follows, and a string table is determined by how it is shown. -/
theorem escaped_strings_determined :
    (∀ bytes,
      (∀ c ∈ (escaped bytes).toList, 0x20 ≤ c.toNat ∧ c.toNat ≤ 0x7e) ∧
      unescape? (escaped bytes).toList = some bytes ∧
      ∀ front back, (escaped bytes).toList = front ++ '"' :: back → escapesNext front = true) ∧
    (∀ (image : Image) address, ∃ body,
      (image.cstringLiteral address).toList = '"' :: (body ++ ['"']) ∧
      unescape? body = some (image.cstring address) ∧
      (∀ front back, body = front ++ '"' :: back → escapesNext front = true) ∧
      escapesNext body = false ∧
      ∀ rest, readLiteral? ((image.cstringLiteral address).toList ++ rest) =
        some (image.cstring address, rest)) ∧
    (∀ annotations bytes functions symbols, build annotations bytes functions = .ok symbols →
      ∀ value strings, symbols.annotations.registers[value.toUInt32]? = none →
        (symbols.space.classify value.toUInt32).isSome = true →
        symbols.isJumpTable value.toUInt32 = false →
        symbols.stringTable? value.toUInt32 = some strings →
        ∃ seed ∈ annotations.tables.stringTables, ∃ pointers,
          symbols.canonical seed = symbols.canonical value.toUInt32 ∧
          symbols.image.run symbols.image.pointsToString seed = .ok pointers ∧
          symbols.ShowsTable value (pointers.map symbols.image.cstring) ∧
          symbols.valueText value = "C_STR_ARRAY [" ++
            ", ".intercalate ((pointers.map symbols.image.cstring).map literal) ++ "] /* " ++
            hexWord value.toUInt32 ++ " */") ∧
    ∀ (symbols others : Symbols) value shown strings further,
      symbols.ShowsTable value strings → others.ShowsTable shown further →
      symbols.valueText value = others.valueText shown → strings = further := by
  refine ⟨?_, ?_, ?_, ?_⟩
  · intro bytes
    refine ⟨fun c => printable_of_mem_escaped, unescape?_escaped bytes, ?_⟩
    intro front back split
    rw [toList_escaped] at split
    exact escapesNext_before_quote bytes split
  · intro image address
    refine ⟨(image.cstring address).flatMap escapedByte, toList_literal _, ?_, ?_,
      not_escapesNext_escaped _, readLiteral?_literal _⟩
    · rw [← toList_escaped]
      exact unescape?_escaped _
    · exact fun front back => escapesNext_before_quote _
  · intro annotations bytes functions symbols built value strings unnamed declared other found
    obtain ⟨seed, member, pointers, same, run, rfl⟩ := exists_pointers_of_build built found
    have shows : symbols.ShowsTable value (pointers.map symbols.image.cstring) :=
      ⟨unnamed, declared, other, found⟩
    exact ⟨seed, member, pointers, same, run, shows, shows.valueText_eq⟩
  · intro symbols others value shown strings further shows showsToo same
    exact shows.strings_eq showsToo same

/-- One pointer, to a string that looks like two literals and has a digit behind an octal escape. -/
def quotingBytes : Array UInt8 :=
  #[0, 0, 0, 8, 0, 0, 0, 0, 0x61, 0x22, 0x2c, 0x20, 0x22, 0x01, 0x31, 0]

def quotingAnnotations : Annotations where
  space := { ranges := [⟨.data, 0, 0xff, "data"⟩] }
  tables := { stringTables := [0] }

theorem escaped_strings_determined_quoting :
    ∃ symbols, build quotingAnnotations quotingBytes {} = .ok symbols ∧
      symbols.stringTable? 0 = some ["\"a\\\", \\\"\\0011\""] ∧
      ∃ pointers : List UInt32, symbols.ShowsTable 0 (pointers.map symbols.image.cstring) ∧
        ∀ strings, symbols.ShowsTable 0 strings → strings = pointers.map symbols.image.cstring := by
  obtain ⟨-, -, shown, unique⟩ := escaped_strings_determined
  have outcome : (build quotingAnnotations quotingBytes {}).toOption.map (fun symbols =>
      (symbols.annotations.registers[(0 : UInt32)]?, (symbols.space.classify 0).isSome,
        symbols.isJumpTable 0, symbols.stringTable? 0)) =
      some (none, true, false, some ["\"a\\\", \\\"\\0011\""]) := by
    decide +kernel
  cases built : build quotingAnnotations quotingBytes {} with
  | error fault =>
    rw [built] at outcome
    cases outcome
  | ok symbols =>
    rw [built] at outcome
    simp only [Except.toOption, Option.map_some, Option.some.injEq, Prod.mk.injEq] at outcome
    obtain ⟨unnamed, declared, other, table⟩ := outcome
    obtain ⟨-, -, pointers, -, -, shows, -⟩ :=
      shown _ _ _ symbols built 0 _ unnamed declared other table
    refine ⟨symbols, rfl, table, pointers, shows, ?_⟩
    intro strings showsToo
    exact unique symbols symbols 0 0 strings _ showsToo shows rfl

end Disassembly.Symbols
