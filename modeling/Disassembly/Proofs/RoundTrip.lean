import Disassembly.Listing.Parse
import Disassembly.Proofs.LineForm
import Disassembly.Proofs.Mirror
import Disassembly.Proofs.FailurePropagation

/-!
# Printing a listing and reading it again

An instruction keeps its mnemonic and its trimmed operands as one text, with a space between them.
Behind an address and four bytes this text is a line again, and the line is read as the instruction:
the text is cut at the same place (`parse?_printed`), and what is cut off decodes to the same. The
address that is printed is canonical, so it stays where it is if its canonical form is itself.
-/

namespace Disassembly.Listing

open Text Memory

/-- The line of an instruction: its address with at least `width` digits, four bytes and its text. -/
def Instruction.printed (width : Nat) (bytes : ByteDigits) (i : Instruction) : List Char :=
  padded 16 width i.address.toNat ++ ':' :: ' ' :: (bytes.text ++ ' ' :: i.text.toList)

/-- A mnemonic and its operands as one text. -/
def spelled (name operands : List Char) : List Char :=
  if operands.isEmpty then name else name ++ ' ' :: operands

/-- The text of an instruction consists of this mnemonic and these operands, which decode to it. -/
structure Instruction.SpelledAs (i : Instruction) (name operands : List Char) : Prop where
  text : i.text.toList = spelled name operands
  mnemonic : Line.isMnemonic name = true
  trimmed : IsTrimmed operands
  oneLine : '\n' ∉ operands
  decodes : Instruction.decode i.address (String.ofList name) (String.ofList operands) = .ok i

/-! ### Mnemonics and operands -/

theorem exists_letters_of_isMnemonic {name : List Char} (mnemonic : Line.isMnemonic name = true) :
    ∃ letters, name = 'l' :: '.' :: letters ∧ ∀ c ∈ letters, isBlank c = false := by
  obtain ⟨letters, named, -, lower⟩ := Line.isMnemonic_iff.mp mnemonic
  exact ⟨letters, named, fun c member => isBlank_of_letter (lower c member).1 (lower c member).2⟩

theorem isBlank_of_mem_mnemonic {name : List Char} (mnemonic : Line.isMnemonic name = true)
    {c : Char} (member : c ∈ name) : isBlank c = false := by
  obtain ⟨letters, rfl, solid⟩ := exists_letters_of_isMnemonic mnemonic
  simp only [List.mem_cons] at member
  rcases member with rfl | rfl | member
  · decide
  · decide
  · exact solid c member

theorem trimEnd_append_space {name operands : List Char} (mnemonic : Line.isMnemonic name = true)
    (trimmed : IsTrimmed operands) :
    trimEnd (name ++ ' ' :: operands) = spelled name operands := by
  cases operands with
  | nil =>
    have blank : isBlank ' ' = true := by decide
    have solid : trimEnd name = name := trimEnd_eq_self fun c ends =>
      isBlank_of_mem_mnemonic mnemonic (List.mem_of_getLast? ends)
    exact (List.rdropWhile_concat_pos isBlank name ' ' blank).trans solid
  | cons c rest =>
    apply trimEnd_eq_self
    intro last ends
    apply trimmed.last
    simpa using ends

/-- The operands of a spelled text and what stands in front of them. -/
theorem spelled_eq_append (name operands : List Char) :
    ∃ rest, spelled name operands = name ++ rest ∧ trimStart rest = trimStart operands ∧
      ∀ c, rest.head? = some c → isBlank c = true := by
  cases operands with
  | nil => exact ⟨[], by simp [spelled], rfl, nofun⟩
  | cons c operands =>
    refine ⟨' ' :: c :: operands, rfl, rfl, ?_⟩
    rintro _ ⟨⟩
    decide

section Spelled

variable {name operands : List Char} (mnemonic : Line.isMnemonic name = true)

include mnemonic

theorem head?_spelled (operands : List Char) : (spelled name operands).head? = some 'l' := by
  obtain ⟨letters, rfl, -⟩ := exists_letters_of_isMnemonic mnemonic
  obtain ⟨rest, split, -⟩ := spelled_eq_append ('l' :: '.' :: letters) operands
  rw [split]
  rfl

theorem takeWhile_spelled : (spelled name operands).takeWhile (!isBlank ·) = name := by
  obtain ⟨rest, split, -, ends⟩ := spelled_eq_append name operands
  rw [split]
  apply takeWhile_word
  · intro c member
    simp [isBlank_of_mem_mnemonic mnemonic member]
  · intro c starts
    simp [ends c starts]

theorem trim_dropWhile_spelled (trimmed : IsTrimmed operands) :
    trim ((spelled name operands).dropWhile (!isBlank ·)) = operands := by
  obtain ⟨rest, split, same, ends⟩ := spelled_eq_append name operands
  have cut : (name ++ rest).dropWhile (!isBlank ·) = rest := by
    apply dropWhile_word
    · intro c member
      simp [isBlank_of_mem_mnemonic mnemonic member]
    · intro c starts
      simp [ends c starts]
  rw [split, cut, trim, same, ← trim, trimmed.trim_eq]

end Spelled

/-! ### Where the text of an instruction comes from -/

/-- A line that is read holds a mnemonic and trimmed operands. -/
theorem Line.exists_of_parse? {line : List Char} {parsed : Line}
    (read : Line.parse? line = some parsed) :
    ∃ name operands, parsed.mnemonic = String.ofList name ∧
      parsed.operands = String.ofList operands ∧ Line.isMnemonic name = true ∧
      IsTrimmed operands ∧ ∀ c ∈ operands, c ∈ line := by
  obtain ⟨form, rfl, denotes⟩ := exists_form_of_parse? read
  refine ⟨form.name, trim form.rest, denotes.mnemonic, denotes.operands, form.isMnemonic_name,
    isTrimmed_trim _, ?_⟩
  intro c member
  have inRest := mem_of_mem_trim member
  simp [LineForm.text, LineForm.contents, LineForm.code, inRest]

theorem Instruction.decode_eq_ok {address : UInt32} {name operands : String} {i : Instruction}
    (decoded : Instruction.decode address name operands = .ok i) :
    i.address = address ∧
      i.text = String.ofList (trimEnd (name.toList ++ ' ' :: trim operands.toList)) := by
  unfold Instruction.decode at decoded
  split at decoded
  · cases decoded
  · dsimp only at decoded
    split at decoded
    · cases decoded
    · cases decoded
      exact ⟨rfl, rfl⟩

/-- What is read from a line keeps a text that decodes to it, at a canonical address of executable
memory. -/
theorem exists_spelledAs_of_instructionOfLine? {space : AddressSpace} {line : List Char}
    {i : Instruction} (read : instructionOfLine? space line = .ok (some i)) (oneLine : '\n' ∉ line) :
    (∃ name operands, i.SpelledAs name operands) ∧
      (∃ address, i.address = space.canonical address) ∧ space.isExecutable i.address = true := by
  unfold instructionOfLine? at read
  split at read
  · cases read
  · next parsed found =>
    dsimp only at read
    split at read
    · next executable =>
      cases decoded : Instruction.decode (space.canonical parsed.address) parsed.mnemonic
          parsed.operands with
      | error fault =>
        rw [decoded] at read
        cases read
      | ok result =>
        rw [decoded] at read
        cases read
        obtain ⟨name, operands, isName, isOperands, mnemonic, trimmed, among⟩ :=
          Line.exists_of_parse? found
        obtain ⟨here, text⟩ := Instruction.decode_eq_ok decoded
        rw [isName, isOperands, String.toList_ofList, String.toList_ofList, trimmed.trim_eq,
          trimEnd_append_space mnemonic trimmed] at text
        rw [isName, isOperands, ← here] at decoded
        rw [← here] at executable
        exact ⟨⟨name, operands, by rw [text, String.toList_ofList], mnemonic, trimmed,
          fun member => oneLine (among _ member), decoded⟩, ⟨_, here⟩, executable⟩
    · cases read

/-! ### Reading a printed line -/

theorem parse?_printed {i : Instruction} {name operands : List Char}
    (spelledAs : i.SpelledAs name operands) (width : Nat) (bytes : ByteDigits) :
    ∃ values, Line.parse? (i.printed width bytes) = some {
      address := i.address
      bytes := values
      mnemonic := String.ofList name
      operands := String.ofList operands } := by
  obtain ⟨letters, rfl, letters_ne_nil, letters_lower⟩ := Line.isMnemonic_iff.mp spelledAs.mnemonic
  obtain ⟨rest, split, same, rest_blank⟩ := spelled_eq_append ('l' :: '.' :: letters) operands
  have blank : ∀ c ∈ [' '], isBlank c = true := List.forall_mem_singleton.mpr rfl
  let form : LineForm := {
    indent := [], digits := padded 16 width i.address.toNat, address := i.address
    gap := [' '], bytes, space := [' '], letters, rest
    indent_blank := nofun
    digits_denote := numeral_padded (by decide) width i.address.toNat
    gap_ne_nil := by simp
    gap_blank := blank
    space_ne_nil := by simp
    space_blank := blank
    letters_ne_nil, letters_lower, rest_blank }
  have printed : i.printed width bytes = form.text := by
    rw [Instruction.printed, spelledAs.text, split]
    rfl
  have trimmed : trim rest = operands := by
    rw [trim, same, ← trim, spelledAs.trimmed.trim_eq]
  obtain ⟨⟨address, values, mnemonic, text⟩, denotes⟩ := form.exists_denoted
  refine ⟨values, ?_⟩
  rw [printed, LineForm.parse?_text denotes]
  obtain ⟨rfl, -, rfl, rfl⟩ := denotes
  rw [← trimmed]
  rfl

theorem instructionOfLine?_printed {space : AddressSpace} {i : Instruction}
    {name operands : List Char} (spelledAs : i.SpelledAs name operands)
    (fixed : space.canonical i.address = i.address) (executable : space.isExecutable i.address = true)
    (width : Nat) (bytes : ByteDigits) :
    instructionOfLine? space (i.printed width bytes) = .ok (some i) := by
  obtain ⟨values, parsed⟩ := parse?_printed spelledAs width bytes
  simp only [instructionOfLine?, parsed, fixed, executable, if_true, spelledAs.decodes]
  rfl

/-! ### Printed lines as lines of a text -/

namespace Instruction.SpelledAs

variable {i : Instruction} {name operands : List Char} (spelledAs : i.SpelledAs name operands)

include spelledAs

theorem newline_not_mem_text : '\n' ∉ i.text.toList := by
  have inName : '\n' ∉ name := by
    intro member
    have blank := isBlank_of_mem_mnemonic spelledAs.mnemonic member
    revert blank
    decide
  rw [spelledAs.text, spelled]
  split
  · exact inName
  · simp [inName, spelledAs.oneLine]

theorem newline_not_mem_printed (width : Nat) (bytes : ByteDigits) :
    '\n' ∉ i.printed width bytes := by
  have digit {c : Char} (hex : isHexDigit c = true) : '\n' ≠ c := by
    rintro rfl
    revert hex
    decide
  have address : '\n' ∉ padded 16 width i.address.toNat := fun member =>
    digit (isHexDigit_of_mem_padded member) rfl
  have high (n : Fin 4) := digit (bytes.isHex n).1
  have low (n : Fin 4) := digit (bytes.isHex n).2
  simp [printed, ByteDigits.text, address, high, low, spelledAs.newline_not_mem_text]

theorem getLast?_printed_ne_return (width : Nat) (bytes : ByteDigits) :
    (i.printed width bytes).getLast? ≠ some '\r' := by
  have split : i.printed width bytes =
      (padded 16 width i.address.toNat ++ ':' :: ' ' :: (bytes.text ++ [' '])) ++ i.text.toList := by
    simp [printed]
  -- The line ends as the text does, and that ends where trimming stopped.
  have ending := spelledAs.text.trans
    (trimEnd_append_space spelledAs.mnemonic spelledAs.trimmed).symm
  have starts := head?_spelled spelledAs.mnemonic operands
  rw [← spelledAs.text] at starts
  cases last : i.text.toList.getLast? with
  | none => simp [List.getLast?_eq_none_iff.mp last] at starts
  | some c =>
    rw [split, List.getLast?_append, last, Option.some_or]
    rintro ⟨⟩
    rw [ending] at last
    have blank := getLast?_trimEnd last
    revert blank
    decide

end Instruction.SpelledAs

/-! ### Whole listings -/

/-- What is read from a listing can be spelled, and is at a canonical address of executable
memory. -/
theorem exists_spelledAs_of_parse {space : AddressSpace} {text : String} {listing : List Instruction}
    (returned : parse space text = .ok listing) {i : Instruction} (member : i ∈ listing) :
    (∃ name operands, i.SpelledAs name operands) ∧
      (∃ address, i.address = space.canonical address) ∧ space.isExecutable i.address = true := by
  obtain ⟨found, read, returned⟩ := exists_of_bind_eq_ok returned
  cases returned
  obtain ⟨result, present, same⟩ := List.mem_filterMap.mp member
  cases same
  obtain ⟨line, among, decoded⟩ := exists_of_mem_mapM_eq_ok read present
  exact exists_spelledAs_of_instructionOfLine? decoded (not_mem_of_mem_lines among)

theorem Instruction.decode_trim (address : UInt32) (name : String) (operands : List Char) :
    Instruction.decode address name (String.ofList (trim operands)) =
      Instruction.decode address name (String.ofList operands) := by
  simp only [Instruction.decode, String.toList_ofList, (isTrimmed_trim operands).trim_eq]

/-- A line that an instruction is printed as. -/
def Instruction.PrintsAs (i : Instruction) (line : List Char) : Prop :=
  ∃ width bytes, line = i.printed width bytes

theorem mapM_printed {space : AddressSpace} {listing : List Instruction} {printed : List (List Char)}
    (spelledAs : ∀ i ∈ listing, ∃ name operands, i.SpelledAs name operands)
    (fixed : ∀ i ∈ listing, space.canonical i.address = i.address)
    (executable : ∀ i ∈ listing, space.isExecutable i.address = true)
    (prints : List.Forall₂ Instruction.PrintsAs listing printed) :
    printed.mapM (instructionOfLine? space) = .ok (listing.map some) := by
  induction prints with
  | nil => rfl
  | @cons i line rest _ here _ ih =>
    obtain ⟨width, bytes, rfl⟩ := here
    obtain ⟨name, operands, spelled⟩ := spelledAs i List.mem_cons_self
    have read := instructionOfLine?_printed spelled (fixed i List.mem_cons_self)
      (executable i List.mem_cons_self) width bytes
    have later := ih (fun j member => spelledAs j (List.mem_cons_of_mem _ member))
      (fun j member => fixed j (List.mem_cons_of_mem _ member))
      fun j member => executable j (List.mem_cons_of_mem _ member)
    rw [List.mapM_cons, read, later]
    rfl

/-- Printed lines hold no line feed and end in no carriage return, so the text is cut where it was put
together. -/
theorem lines_unlines_printed {listing : List Instruction} {printed : List (List Char)}
    (spelledAs : ∀ i ∈ listing, ∃ name operands, i.SpelledAs name operands)
    (prints : List.Forall₂ Instruction.PrintsAs listing printed) :
    lines (unlines printed) = printed := by
  apply lines_unlines
  intro line among
  obtain ⟨i, member, width, bytes, rfl⟩ := exists_of_mem_forall₂ prints among
  obtain ⟨name, operands, spelled⟩ := spelledAs i member
  exact ⟨spelled.newline_not_mem_printed width bytes,
    spelled.getLast?_printed_ne_return width bytes⟩

/-- A listing that was read can be printed, every instruction at its address and with any four bytes,
and is then read again as it is, provided that a canonical address is its own canonical form. The text
of an instruction, cut at its first blank, decodes to the instruction. -/
theorem parse_printed_listing (space : AddressSpace)
    (idempotent : ∀ address, space.canonical (space.canonical address) = space.canonical address)
    (text : String) (listing : List Instruction) (returned : parse space text = .ok listing) :
    (∀ printed, List.Forall₂ Instruction.PrintsAs listing printed →
      parse space (String.ofList (unlines printed)) = .ok listing) ∧
    ∀ i ∈ listing, Instruction.decode i.address
      (String.ofList (i.text.toList.takeWhile (!isBlank ·)))
      (String.ofList (i.text.toList.dropWhile (!isBlank ·))) = .ok i := by
  have sound (i : Instruction) (member : i ∈ listing) := exists_spelledAs_of_parse returned member
  constructor
  · intro printed prints
    have fixed (i : Instruction) (member : i ∈ listing) : space.canonical i.address = i.address := by
      obtain ⟨-, ⟨address, canonical⟩, -⟩ := sound i member
      rw [canonical, idempotent]
    have spelledAs (i : Instruction) (member : i ∈ listing) := (sound i member).1
    have read := mapM_printed spelledAs fixed (fun i member => (sound i member).2.2) prints
    -- No printed line is skipped, so every result holds an instruction.
    rw [parse, String.toList_ofList, lines_unlines_printed spelledAs prints, read]
    change Except.ok ((listing.map some).filterMap id) = _
    simp
  · intro i member
    obtain ⟨⟨name, operands, spelledAs⟩, -⟩ := sound i member
    rw [← Instruction.decode_trim, spelledAs.text, takeWhile_spelled spelledAs.mnemonic,
      trim_dropWhile_spelled spelledAs.mnemonic spelledAs.trimmed]
    exact spelledAs.decodes

/-- Code at the start of memory that also shows at `0x1000`. -/
def shownTwice : AddressSpace where
  ranges := [{ kind := .code, start := 0, last := 0xff, label := "code" }]
  mirror := some { start := 0x1000, size := 0x100, canonical := 0 }

/-- Blanks of several kinds, a line that ends in a carriage return, a line without an instruction,
one outside of code and a last line without an end. -/
def looseText : String :=
  "  1004:\t9C 63 00 05\u00a0l.addi\tr3 , r3,5 \r\n; a comment\n" ++
    "2000: 15 00 00 00 l.nop\n8: 04 00 00 02  l.jal   1010 "

def looseListing : List Instruction :=
  [{ address := 4, listedAddress := 4,
      operation := .aluImmediate .addi .firstArgument .firstArgument 5,
      text := "l.addi r3 , r3,5" },
    { address := 8, listedAddress := 8, operation := .branch .jal 0x1010, text := "l.jal 1010" }]

def zeroBytes : ByteDigits where
  high := fun _ => '0'
  low := fun _ => '0'
  isHex := fun _ => ⟨rfl, rfl⟩

theorem parse_printed_listing_loose :
    parse shownTwice looseText = .ok looseListing ∧
      parse shownTwice
        (String.ofList (unlines (looseListing.map (Instruction.printed 8 zeroBytes)))) =
          .ok looseListing ∧
      ∀ i ∈ looseListing, Instruction.decode i.address
        (String.ofList (i.text.toList.takeWhile (!isBlank ·)))
        (String.ofList (i.text.toList.dropWhile (!isBlank ·))) = .ok i := by
  have idempotent (address : UInt32) :
      shownTwice.canonical (shownTwice.canonical address) = shownTwice.canonical address :=
    (Mirror.canonicalize_idempotent_iff (by decide)).mpr (by decide) address
  have read : parse shownTwice looseText = .ok looseListing :=
    eq_ok_of_toOption (by decide +kernel)
  obtain ⟨printed, decodes⟩ :=
    parse_printed_listing shownTwice idempotent looseText looseListing read
  refine ⟨read, printed _ ?_, decodes⟩
  exact List.forall₂_map_right_iff.mpr (List.forall₂_same.mpr fun i _ => ⟨8, zeroBytes, rfl⟩)

end Disassembly.Listing
