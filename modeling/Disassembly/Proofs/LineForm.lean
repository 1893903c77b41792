import Disassembly.Listing.Line
import Disassembly.Proofs.Cutting
import Disassembly.Proofs.Numerals
import Mathlib.Data.Fin.VecNotation
import Mathlib.Data.Fintype.Basic
import Mathlib.Tactic.FinCases

/-!
# The form of an instruction line

A line of the listing is put together from its parts in one way only: each part ends where the next
one starts with a character that it cannot contain. The reader takes the parts off one by one and
accepts a line exactly if it has this form.
-/

namespace Disassembly.Listing

open Text

/-- The digits that the four bytes of an instruction are printed with. They are read, but nothing
depends on them. -/
structure ByteDigits where
  high : Fin 4 → Char
  low : Fin 4 → Char
  isHex : ∀ n, isHexDigit (high n) = true ∧ isHexDigit (low n) = true

def ByteDigits.text (bytes : ByteDigits) : List Char :=
  [bytes.high 0, bytes.low 0, ' ', bytes.high 1, bytes.low 1, ' ', bytes.high 2, bytes.low 2, ' ',
    bytes.high 3, bytes.low 3]

/-- The parts of an instruction line, each of the form it must have. -/
@[ext]
structure LineForm where
  indent : List Char
  digits : List Char
  address : UInt32
  gap : List Char
  bytes : ByteDigits
  space : List Char
  letters : List Char
  rest : List Char
  indent_blank : ∀ c ∈ indent, isBlank c = true
  digits_denote : Numeral 16 digits address.toNat
  gap_ne_nil : gap ≠ []
  gap_blank : ∀ c ∈ gap, isBlank c = true
  space_ne_nil : space ≠ []
  space_blank : ∀ c ∈ space, isBlank c = true
  letters_ne_nil : letters ≠ []
  letters_lower : ∀ c ∈ letters, 'a' ≤ c ∧ c ≤ 'z'
  /-- The operands are apart from the mnemonic. -/
  rest_blank : ∀ c, rest.head? = some c → isBlank c = true

namespace LineForm

def name (form : LineForm) : List Char :=
  'l' :: '.' :: form.letters

/-- The mnemonic and the operands. -/
def code (form : LineForm) : List Char :=
  form.name ++ form.rest

/-- The bytes of the instruction and what follows them. -/
def contents (form : LineForm) : List Char :=
  form.bytes.text ++ (form.space ++ form.code)

/-- The line that has these parts. -/
def text (form : LineForm) : List Char :=
  form.indent ++ (form.digits ++ ':' :: (form.gap ++ form.contents))

/-- What a line of this form says. -/
structure Denotes (form : LineForm) (line : Line) : Prop where
  address : line.address = form.address
  bytes : ∃ values : Fin 4 → UInt8, line.bytes = List.ofFn values ∧
    ∀ n, Numeral 16 [form.bytes.high n, form.bytes.low n] (values n).toNat
  mnemonic : line.mnemonic = String.ofList form.name
  operands : line.operands = String.ofList (trim form.rest)

end LineForm

namespace Line

/-! ### The readers of the parts -/

theorem byte?_eq_some_iff {high low : Char} {value : UInt8} :
    byte? high low = some value ↔ Numeral 16 [high, low] value.toNat := by
  rw [← readNumber?_eq_some_iff fun _ _ => hexDigit?_eq_some_iff, byte?, readNumber?,
    List.mapM_cons, List.mapM_cons, List.mapM_nil]
  cases first : hexDigit? high with
  | none => simp
  | some h =>
    cases second : hexDigit? low with
    | none => simp
    | some l =>
      have fits : (16 * h + l) % 256 = 16 * h + l := by
        have := (hexDigit?_eq_some_iff.mp first).1
        have := (hexDigit?_eq_some_iff.mp second).1
        omega
      simp [ofDigits, ← UInt8.toNat_inj, fits]

theorem afterBlanks?_eq_some_iff {text rest : List Char} :
    afterBlanks? text = some rest ↔
      ∃ blanks, blanks ≠ [] ∧ (∀ c ∈ blanks, isBlank c = true) ∧ text = blanks ++ rest ∧
        ∀ c, rest.head? = some c → isBlank c = false := by
  constructor
  · intro found
    unfold afterBlanks? at found
    split at found
    · next c tail =>
      split at found
      · next blank =>
        cases found
        refine ⟨c :: tail.takeWhile isBlank, by simp, ?_, ?_, fun c => head?_trimStart⟩
        · intro other member
          rcases List.mem_cons.mp member with rfl | later
          · exact blank
          · exact List.mem_takeWhile_imp later
        · rw [List.cons_append, trimStart, List.takeWhile_append_dropWhile]
      · cases found
    · cases found
  · rintro ⟨blanks, nonempty, blank, rfl, solid⟩
    cases blanks with
    | nil => exact absurd rfl nonempty
    | cons c blanks =>
      rw [List.cons_append, afterBlanks?, if_pos (blank c List.mem_cons_self), trimStart,
        dropWhile_word (fun d member => blank d (List.mem_cons_of_mem c member)) solid]

theorem isHexDigit_of_byte? {high low : Char} {value : UInt8} (read : byte? high low = some value) :
    isHexDigit high = true ∧ isHexDigit low = true := by
  simp only [byte?, Option.bind_eq_bind, Option.bind_eq_some_iff] at read
  obtain ⟨h, first, l, second, -⟩ := read
  rw [isHexDigit, isHexDigit, first, second]
  exact ⟨rfl, rfl⟩

theorem bytes?_eq_some_iff {text rest : List Char} {values : List UInt8} :
    bytes? text = some (values, rest) ↔
      ∃ (bytes : ByteDigits) (value : Fin 4 → UInt8), text = bytes.text ++ rest ∧
        values = List.ofFn value ∧ ∀ n, Numeral 16 [bytes.high n, bytes.low n] (value n).toNat := by
  constructor
  · intro found
    unfold bytes? at found
    split at found
    · next h0 l0 h1 l1 h2 l2 h3 l3 tail =>
      simp only [Option.bind_eq_bind, Option.bind_eq_some_iff, Option.pure_def, Option.some.injEq,
        Prod.mk.injEq] at found
      obtain ⟨b0, first, b1, second, b2, third, b3, fourth, rfl, rfl⟩ := found
      have read (n : Fin 4) :
          byte? (![h0, h1, h2, h3] n) (![l0, l1, l2, l3] n) = some (![b0, b1, b2, b3] n) := by
        fin_cases n
        · exact first
        · exact second
        · exact third
        · exact fourth
      refine ⟨⟨![h0, h1, h2, h3], ![l0, l1, l2, l3], fun n => isHexDigit_of_byte? (read n)⟩,
        ![b0, b1, b2, b3], rfl, rfl, fun n => byte?_eq_some_iff.mp (read n)⟩
    · cases found
  · rintro ⟨bytes, value, rfl, rfl, denotes⟩
    have read (n : Fin 4) : byte? (bytes.high n) (bytes.low n) = some (value n) :=
      byte?_eq_some_iff.mpr (denotes n)
    simp [ByteDigits.text, bytes?, read, List.ofFn_succ]

theorem isMnemonic_iff {word : List Char} :
    isMnemonic word = true ↔
      ∃ letters, word = 'l' :: '.' :: letters ∧ letters ≠ [] ∧
        ∀ c ∈ letters, 'a' ≤ c ∧ c ≤ 'z' := by
  constructor
  · intro mnemonic
    unfold isMnemonic at mnemonic
    split at mnemonic
    · next letters =>
      refine ⟨letters, rfl, ?_⟩
      simpa [and_comm] using mnemonic
    · cases mnemonic
  · rintro ⟨letters, rfl, nonempty, lower⟩
    simp [isMnemonic, nonempty]
    exact lower

end Line

/-! ### Where the parts end -/

theorem ne_colon_of_isHexDigit {c : Char} (digit : isHexDigit c = true) : c ≠ ':' := by
  have range := toNat_of_isHexDigit digit
  rintro rfl
  revert range
  decide

theorem isBlank_of_letter {c : Char} (above : 'a' ≤ c) (below : c ≤ 'z') : isBlank c = false := by
  have low : 97 ≤ c.toNat := UInt32.le_iff_toNat_le.mp above
  have high : c.toNat ≤ 122 := UInt32.le_iff_toNat_le.mp below
  simp only [isBlank, Bool.or_eq_false_iff, Bool.and_eq_false_iff, decide_eq_false_iff_not,
    beq_eq_false_iff_ne]
  omega

namespace LineForm

variable (form : LineForm)

theorem isHexDigit_of_mem_digits {c : Char} (member : c ∈ form.digits) : isHexDigit c = true :=
  isHexDigit_iff.mpr (form.digits_denote.isDigit_of_mem member)

theorem digits_start (behind : List Char) {c : Char}
    (starts : (form.digits ++ behind).head? = some c) : isBlank c = false := by
  rw [List.head?_append_of_ne_nil _ form.digits_denote.ne_nil] at starts
  exact isBlank_of_isHexDigit (form.isHexDigit_of_mem_digits (List.mem_of_head? starts))

theorem not_colon_of_mem_digits {c : Char} (member : c ∈ form.digits) : (c != ':') = true :=
  bne_iff_ne.mpr (ne_colon_of_isHexDigit (form.isHexDigit_of_mem_digits member))

theorem contents_start {c : Char} (starts : form.contents.head? = some c) : isBlank c = false := by
  cases starts
  exact isBlank_of_isHexDigit (form.bytes.isHex 0).1

theorem code_start {c : Char} (starts : form.code.head? = some c) : isBlank c = false := by
  cases starts
  decide

theorem isBlank_of_mem_name {c : Char} (member : c ∈ form.name) : (!isBlank c) = true := by
  simp only [name, List.mem_cons] at member
  rcases member with rfl | rfl | letter
  · decide
  · decide
  · obtain ⟨above, below⟩ := form.letters_lower c letter
    simp [isBlank_of_letter above below]

theorem isMnemonic_name : Line.isMnemonic form.name = true :=
  Line.isMnemonic_iff.mpr ⟨form.letters, rfl, form.letters_ne_nil, form.letters_lower⟩

theorem rest_start {c : Char} (starts : form.rest.head? = some c) : (!isBlank c) = false := by
  simp [form.rest_blank c starts]

end LineForm

theorem colon_start (behind : List Char) {c : Char} (starts : (':' :: behind).head? = some c) :
    (c != ':') = false := by
  cases starts
  rfl

/-! ### Reading a line -/

theorem LineForm.parse?_text {form : LineForm} {line : Line} (denotes : form.Denotes line) :
    Line.parse? form.text = some line := by
  obtain ⟨address, bytes, mnemonic, operands⟩ := line
  obtain ⟨rfl, ⟨values, rfl, read⟩, rfl, rfl⟩ := denotes
  have start : trimStart form.text = form.digits ++ ':' :: (form.gap ++ form.contents) :=
    dropWhile_word form.indent_blank fun c => form.digits_start _
  -- The address ends at the first colon.
  have digits := takeWhile_word (fun c => form.not_colon_of_mem_digits)
    fun c => colon_start (form.gap ++ form.contents)
  have behind := dropWhile_word (fun c => form.not_colon_of_mem_digits)
    fun c => colon_start (form.gap ++ form.contents)
  have number := readHexWord?_eq_some_iff.mpr form.digits_denote
  have gap : Line.afterBlanks? (form.gap ++ form.contents) = some form.contents :=
    Line.afterBlanks?_eq_some_iff.mpr
      ⟨form.gap, form.gap_ne_nil, form.gap_blank, rfl, fun c => form.contents_start⟩
  have four : Line.bytes? form.contents = some (List.ofFn values, form.space ++ form.code) :=
    Line.bytes?_eq_some_iff.mpr ⟨form.bytes, values, rfl, rfl, read⟩
  have space : Line.afterBlanks? (form.space ++ form.code) = some form.code :=
    Line.afterBlanks?_eq_some_iff.mpr
      ⟨form.space, form.space_ne_nil, form.space_blank, rfl, fun c => form.code_start⟩
  -- The mnemonic ends at the first blank.
  have word : form.code.takeWhile (!isBlank ·) = form.name :=
    takeWhile_word (fun c => form.isBlank_of_mem_name) fun c => form.rest_start
  have rest : form.code.dropWhile (!isBlank ·) = form.rest :=
    dropWhile_word (fun c => form.isBlank_of_mem_name) fun c => form.rest_start
  simp only [Line.parse?, start, digits, behind, number, List.drop_succ_cons, List.drop_zero, gap,
    four, space, word, rest, form.isMnemonic_name, Option.bind_eq_bind, Option.bind_some, if_true]
  rfl

theorem dropWhile_eq_colon_cons {text behind : List Char}
    (found : (text.dropWhile (· != ':')).drop 1 = behind) (nonempty : behind ≠ []) :
    text.dropWhile (· != ':') = ':' :: behind := by
  have stops := List.head?_dropWhile_not (· != ':') text
  cases left : text.dropWhile (· != ':') with
  | nil =>
    rw [left] at found
    exact absurd found.symm nonempty
  | cons c rest =>
    rw [left] at stops found
    have colon : c = ':' := by simpa using stops
    rw [colon, ← found]
    rfl

theorem exists_form_of_parse? {s : List Char} {line : Line} (read : Line.parse? s = some line) :
    ∃ form : LineForm, form.text = s ∧ form.Denotes line := by
  simp only [Line.parse?, Option.bind_eq_bind, Option.bind_eq_some_iff] at read
  obtain ⟨address, number, afterAddress, gap, ⟨values, afterBytes⟩, four, word, space, read⟩ := read
  split at read
  · next mnemonic =>
    cases read
    obtain ⟨blanks, gap_ne_nil, gap_blank, behind, -⟩ := Line.afterBlanks?_eq_some_iff.mp gap
    obtain ⟨bytes, value, rfl, rfl, denote⟩ := Line.bytes?_eq_some_iff.mp four
    obtain ⟨spaces, space_ne_nil, space_blank, rfl, -⟩ := Line.afterBlanks?_eq_some_iff.mp space
    obtain ⟨letters, named, letters_ne_nil, letters_lower⟩ := Line.isMnemonic_iff.mp mnemonic
    have colon := dropWhile_eq_colon_cons behind (by simp [gap_ne_nil])
    have rest_blank (c : Char) (starts : (word.dropWhile (!isBlank ·)).head? = some c) :
        isBlank c = true := by
      have stops := List.head?_dropWhile_not (!isBlank ·) word
      rw [starts] at stops
      simpa using stops
    let form : LineForm := {
      indent := s.takeWhile isBlank, digits := (trimStart s).takeWhile (· != ':'), address
      gap := blanks, bytes, space := spaces, letters, rest := word.dropWhile (!isBlank ·)
      indent_blank := fun c => List.mem_takeWhile_imp
      digits_denote := readHexWord?_eq_some_iff.mp number
      gap_ne_nil, gap_blank, space_ne_nil, space_blank, letters_ne_nil, letters_lower, rest_blank }
    refine ⟨form, ?_, rfl, ⟨value, rfl, denote⟩, congrArg String.ofList named, rfl⟩
    -- The parts are put together again from the last to the first.
    have code : form.code = word := by
      change 'l' :: '.' :: letters ++ word.dropWhile (!isBlank ·) = word
      rw [← named, List.takeWhile_append_dropWhile]
    change s.takeWhile isBlank ++ ((trimStart s).takeWhile (· != ':') ++
      ':' :: (blanks ++ (bytes.text ++ (spaces ++ form.code)))) = s
    rw [code, ← colon, List.takeWhile_append_dropWhile, trimStart, List.takeWhile_append_dropWhile]
  · cases read

/-! ### Uniqueness -/

theorem ByteDigits.eq_of_text_eq {bytes other : ByteDigits} (same : bytes.text = other.text) :
    bytes = other := by
  obtain ⟨high, low, isHex⟩ := bytes
  obtain ⟨high', low', isHex'⟩ := other
  simp only [text, List.cons.injEq, and_true, true_and] at same
  obtain ⟨h0, l0, h1, l1, h2, l2, h3, l3⟩ := same
  have highs : high = high' := by
    funext n
    fin_cases n <;> assumption
  have lows : low = low' := by
    funext n
    fin_cases n <;> assumption
  subst highs lows
  rfl

theorem LineForm.eq_of_text_eq {form other : LineForm} (same : form.text = other.text) :
    form = other := by
  obtain ⟨indent, same⟩ := eq_of_append_eq form.indent_blank (fun c => form.digits_start _)
    other.indent_blank (fun c => other.digits_start _) same
  obtain ⟨digits, same⟩ := eq_of_append_eq (fun c => form.not_colon_of_mem_digits)
    (fun c => colon_start _) (fun c => other.not_colon_of_mem_digits) (fun c => colon_start _) same
  obtain ⟨gap, same⟩ := eq_of_append_eq form.gap_blank (fun c => form.contents_start)
    other.gap_blank (fun c => other.contents_start) (List.cons.inj same).2
  obtain ⟨bytes, same⟩ := List.append_inj same rfl
  obtain ⟨space, same⟩ := eq_of_append_eq form.space_blank (fun c => form.code_start)
    other.space_blank (fun c => other.code_start) same
  obtain ⟨name, rest⟩ := eq_of_append_eq (fun c => form.isBlank_of_mem_name)
    (fun c => form.rest_start) (fun c => other.isBlank_of_mem_name) (fun c => other.rest_start) same
  have address : form.address = other.address := by
    have read := readHexWord?_eq_some_iff.mpr form.digits_denote
    rw [digits, readHexWord?_eq_some_iff.mpr other.digits_denote] at read
    exact (Option.some.inj read).symm
  have letters : form.letters = other.letters := by simpa [LineForm.name] using name
  exact LineForm.ext indent digits address gap (ByteDigits.eq_of_text_eq bytes) space letters rest

theorem LineForm.exists_denoted (form : LineForm) : ∃ line, form.Denotes line := by
  have byte (n : Fin 4) :
      ∃ value : UInt8, Numeral 16 [form.bytes.high n, form.bytes.low n] value.toNat := by
    obtain ⟨high, low⟩ := form.bytes.isHex n
    obtain ⟨x, isHigh⟩ := Option.isSome_iff_exists.mp high
    obtain ⟨y, isLow⟩ := Option.isSome_iff_exists.mp low
    refine ⟨UInt8.ofNat (16 * x + y), Line.byte?_eq_some_iff.mp ?_⟩
    rw [Line.byte?, isHigh, isLow]
    rfl
  choose values denote using byte
  exact ⟨⟨form.address, List.ofFn values, String.ofList form.name, String.ofList (trim form.rest)⟩,
    rfl, ⟨values, rfl, denote⟩, rfl, rfl⟩

/-- A line is accepted exactly if it is put together from the parts of an instruction line, which it
then determines, and it is read as what these parts denote. -/
theorem Line.parse?_accepts_line_forms :
    (∀ s, (Line.parse? s).isSome = true ↔ ∃ form : LineForm, form.text = s) ∧
      (∀ form other : LineForm, form.text = other.text → form = other) ∧
      ∀ (form : LineForm) (line : Line), Line.parse? form.text = some line ↔ form.Denotes line := by
  refine ⟨?_, fun _ _ => LineForm.eq_of_text_eq, ?_⟩
  · intro s
    constructor
    · intro accepted
      obtain ⟨line, read⟩ := Option.isSome_iff_exists.mp accepted
      obtain ⟨form, text, -⟩ := exists_form_of_parse? read
      exact ⟨form, text⟩
    · rintro ⟨form, rfl⟩
      obtain ⟨line, denotes⟩ := form.exists_denoted
      rw [LineForm.parse?_text denotes]
      rfl
  · intro form line
    constructor
    · intro read
      obtain ⟨other, text, denotes⟩ := exists_form_of_parse? read
      rwa [LineForm.eq_of_text_eq text] at denotes
    · exact LineForm.parse?_text

end Disassembly.Listing
