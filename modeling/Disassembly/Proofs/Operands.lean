import Disassembly.Fault
import Disassembly.Proofs.Cutting
import Disassembly.Proofs.Numerals
import Disassembly.Proofs.FailurePropagation

/-!
# The grammar of operands

The four kinds of operands are given as relations between texts and what they denote, without any
reader. Each reader accepts the texts of its kind and no others, so decoding succeeds exactly if a
text has as many pieces as the mnemonic takes and every piece is of its kind. A piece that is not is
reported, and of several the one that is read first: a memory operand, or else the leftmost.
-/

namespace Disassembly.Isa

open Text

theorem Register.ofNat?_eq_some_iff {index : Nat} {r : Register} :
    Register.ofNat? index = some r ↔ index = r.index.val := by
  unfold Register.ofNat?
  split
  · rw [Option.some.injEq]
    constructor
    · rintro rfl
      rfl
    · rintro rfl
      rfl
  · next large =>
    have bound := r.index.isLt
    constructor
    · intro found
      cases found
    · intro same
      omega

namespace Operand

/-! ### Texts of operands -/

/-- `r` and the number of a register. -/
inductive RegisterText : List Char → Register → Prop where
  | intro {digits : List Char} {r : Register} (number : Numeral 10 digits r.index.val) :
      RegisterText ('r' :: digits) r

/-- Decimal digits, behind a minus sign or not. -/
inductive DecimalText : List Char → Int → Prop where
  | positive {digits : List Char} {n : Nat} (number : Numeral 10 digits n) : DecimalText digits n
  | negative {digits : List Char} {n : Nat} (number : Numeral 10 digits n) :
      DecimalText ('-' :: digits) (-n)

/-- A word in hexadecimal, behind `0x`, or a signed word in decimal. -/
inductive ImmediateText : List Char → Int32 → Prop where
  | hex {digits : List Char} {word : UInt32} (number : Numeral 16 digits word.toNat) :
      ImmediateText ('0' :: 'x' :: digits) word.toInt32
  | decimal {text : List Char} {i : Int32} (number : DecimalText text i.toInt) :
      ImmediateText text i

/-- A word in hexadecimal, up to the first character that is no digit. -/
inductive TargetText : List Char → UInt32 → Prop where
  | intro {digits rest : List Char} {address : UInt32} (number : Numeral 16 digits address.toNat)
      (ends : ∀ c, rest.head? = some c → ¬∃ value, IsDigit 16 c value) :
      TargetText (digits ++ rest) address

/-- A displacement in decimal and a base register in parentheses. -/
inductive MemoryText : List Char → Int32 × Register → Prop where
  | intro {offset base : List Char} {i : Int32} {r : Register}
      (displacement : DecimalText offset i.toInt) (register : RegisterText base r) :
      MemoryText (offset ++ '(' :: (base ++ [')'])) (i, r)

/-! ### Readers of one operand -/

theorem DecimalText.minus_or_digit_of_mem {text : List Char} {value : Int}
    (number : DecimalText text value) {c : Char} (member : c ∈ text) :
    c = '-' ∨ (decimalDigit? c).isSome = true := by
  cases number with
  | positive number => exact .inr (isSome_decimalDigit?_of_mem number member)
  | negative number =>
    rcases List.mem_cons.mp member with sign | digit
    · exact .inl sign
    · exact .inr (isSome_decimalDigit?_of_mem number digit)

theorem parse?_eq_some_iff {text : List Char} {r : Register} :
    Register.parse? text = some r ↔ RegisterText text r := by
  constructor
  · intro found
    unfold Register.parse? at found
    split at found
    · obtain ⟨number, read, valid⟩ := Option.bind_eq_some_iff.mp found
      cases Register.ofNat?_eq_some_iff.mp valid
      exact .intro (readDecimal?_eq_some_iff.mp read)
    · cases found
  · rintro ⟨number⟩
    rw [Register.parse?, readDecimal?_eq_some_iff.mpr number, Option.bind_some,
      Register.ofNat?_eq_some_iff]

/-- A number is kept exactly if it is the value of a signed word. -/
theorem ofInt?_eq_some_iff {value : Int} {i : Int32} :
    (if -0x80000000 ≤ value ∧ value < 0x80000000 then some (Int32.ofInt value) else none) = some i ↔
      value = i.toInt := by
  split
  · next fits =>
    rw [Option.some.injEq, ← Int32.toInt_inj, Int32.toInt_ofInt_of_le fits.1 fits.2]
  · next outside =>
    have low := i.le_toInt
    have high := i.toInt_lt
    constructor
    · intro found
      cases found
    · rintro rfl
      exact absurd ⟨low, high⟩ outside

theorem decimal?_minus_eq_some_iff {digits : List Char} {i : Int32} :
    decimal? ('-' :: digits) = some i ↔ ∃ n : Nat, Numeral 10 digits n ∧ -(n : Int) = i.toInt := by
  simp only [← readDecimal?_eq_some_iff, decimal?]
  cases readDecimal? digits with
  | none => simp
  | some n =>
    simp only [Option.some.injEq, exists_eq_left']
    exact ofInt?_eq_some_iff

theorem decimal?_plain_eq_some_iff {text : List Char} {i : Int32}
    (plain : ∀ digits, text ≠ '-' :: digits) :
    decimal? text = some i ↔ ∃ n : Nat, Numeral 10 text n ∧ (n : Int) = i.toInt := by
  simp only [← readDecimal?_eq_some_iff, decimal?]
  cases readDecimal? text with
  | none => simp
  | some n =>
    simp only [Option.some.injEq, exists_eq_left']
    exact ofInt?_eq_some_iff

theorem decimal?_eq_some_iff {text : List Char} {i : Int32} :
    decimal? text = some i ↔ DecimalText text i.toInt := by
  by_cases minus : ∃ digits, text = '-' :: digits
  · obtain ⟨digits, rfl⟩ := minus
    rw [decimal?_minus_eq_some_iff]
    constructor
    · rintro ⟨n, number, value⟩
      rw [← value]
      exact .negative number
    · intro number
      generalize i.toInt = value at number
      cases number with
      | negative number => exact ⟨_, number, rfl⟩
      | positive number =>
        -- The sign would have to be a digit.
        have digit := isSome_decimalDigit?_of_mem number List.mem_cons_self
        cases digit
  · have plain : ∀ digits, text ≠ '-' :: digits := fun digits same => minus ⟨digits, same⟩
    rw [decimal?_plain_eq_some_iff plain]
    constructor
    · rintro ⟨n, number, value⟩
      rw [← value]
      exact .positive number
    · intro number
      generalize i.toInt = value at number
      cases number with
      | negative number => exact absurd rfl (plain _)
      | positive number => exact ⟨_, number, rfl⟩

theorem immediate?_eq_some_iff {text : List Char} {i : Int32} :
    immediate? text = some i ↔ ImmediateText text i := by
  unfold immediate?
  split
  · next digits =>
    rw [Option.map_eq_some_iff]
    constructor
    · rintro ⟨word, read, rfl⟩
      exact .hex (readHexWord?_eq_some_iff.mp read)
    · intro immediate
      cases immediate with
      | hex number => exact ⟨_, readHexWord?_eq_some_iff.mpr number, rfl⟩
      | decimal number =>
        have marker := number.minus_or_digit_of_mem (List.mem_cons_of_mem '0' List.mem_cons_self)
        exact absurd marker (by decide)
  · next other =>
    rw [decimal?_eq_some_iff]
    constructor
    · exact .decimal
    · intro immediate
      cases immediate with
      | hex number => exact absurd rfl (other _)
      | decimal number => exact number

theorem target?_eq_some_iff {text : List Char} {address : UInt32} :
    target? text = some address ↔ TargetText text address := by
  rw [target?, readHexWord?_eq_some_iff]
  constructor
  · intro number
    rw [← List.takeWhile_append_dropWhile (p := isHexDigit) (l := text)]
    refine .intro number ?_
    intro c starts digit
    have stops := List.head?_dropWhile_not isHexDigit text
    rw [starts] at stops
    cases (isHexDigit_iff.mpr digit).symm.trans stops
  · rintro ⟨number, ends⟩
    rw [takeWhile_word]
    · exact number
    · intro c member
      exact isHexDigit_iff.mpr (number.isDigit_of_mem member)
    · intro c starts
      exact Bool.eq_false_iff.mpr fun digit => ends c starts (isHexDigit_iff.mp digit)

theorem memory?_eq_some_iff {text : List Char} {cell : Int32 × Register} :
    memory? text = some cell ↔ MemoryText text cell := by
  constructor
  · intro found
    unfold memory? at found
    split at found
    · next closed =>
      obtain ⟨inner, rfl⟩ := List.getLast?_eq_some_iff.mp closed
      rw [List.dropLast_concat] at found
      split at found
      · next base opened =>
        simp only [Option.bind_eq_bind, Option.bind_eq_some_iff, Option.pure_def,
          Option.some.injEq] at found
        obtain ⟨i, displacement, r, register, rfl⟩ := found
        have written := MemoryText.intro (decimal?_eq_some_iff.mp displacement)
          (parse?_eq_some_iff.mp register)
        rwa [← List.cons_append, ← opened, ← List.append_assoc, List.takeWhile_append_dropWhile]
          at written
      · cases found
    · cases found
  · rintro @⟨offset, base, i, r, displacement, register⟩
    have inside (c : Char) (member : c ∈ offset) : (c != '(') = true := by
      have shape := displacement.minus_or_digit_of_mem member
      rw [bne_iff_ne]
      rintro rfl
      exact absurd shape (by decide)
    have opens (c : Char) (starts : ('(' :: base).head? = some c) : (c != '(') = false := by
      cases starts
      rfl
    rw [← List.cons_append, ← List.append_assoc, memory?, List.getLast?_concat, if_pos rfl,
      List.dropLast_concat, takeWhile_word inside opens, dropWhile_word inside opens]
    simp only [decimal?_eq_some_iff.mpr displacement, parse?_eq_some_iff.mpr register]
    rfl

/-! ### Reading and reporting -/

theorem required_eq_ok_iff {α : Type} {kind : OperandKind} {read? : List Char → Option α}
    {text : List Char} {value : α} :
    required kind read? text = .ok value ↔ read? text = some value := by
  unfold required
  cases read? text <;> simp

theorem register_eq_ok_iff {text : List Char} {r : Register} :
    register text = .ok r ↔ RegisterText text r :=
  required_eq_ok_iff.trans parse?_eq_some_iff

theorem target_eq_ok_iff {text : List Char} {address : UInt32} :
    target text = .ok address ↔ TargetText text address :=
  required_eq_ok_iff.trans target?_eq_some_iff

theorem immediate_eq_ok_iff {text : List Char} {i : Int32} :
    immediate text = .ok i ↔ ImmediateText text i :=
  required_eq_ok_iff.trans immediate?_eq_some_iff

theorem memory_eq_ok_iff {text : List Char} {cell : Int32 × Register} :
    memory text = .ok cell ↔ MemoryText text cell :=
  required_eq_ok_iff.trans memory?_eq_some_iff

end Operand

open Operand

/-- The texts of a kind of operands. -/
def OperandKind.Matches : OperandKind → List Char → Prop
  | .register, text => ∃ r, RegisterText text r
  | .target, text => ∃ address, TargetText text address
  | .immediate, text => ∃ i, ImmediateText text i
  | .memory, text => ∃ cell, MemoryText text cell

/-- A piece of an operand text and the kind it should be of. -/
structure Piece where
  kind : OperandKind
  text : List Char

/-- The first piece that is not of its kind. -/
inductive FirstMismatch : List Piece → Piece → Prop where
  | here {piece : Piece} {rest : List Piece} (differs : ¬piece.kind.Matches piece.text) :
      FirstMismatch (piece :: rest) piece
  | later {first piece : Piece} {rest : List Piece} (agrees : first.kind.Matches first.text)
      (found : FirstMismatch rest piece) : FirstMismatch (first :: rest) piece

theorem exists_firstMismatch_iff {pieces : List Piece} :
    (∃ piece, FirstMismatch pieces piece) ↔ ∃ piece ∈ pieces, ¬piece.kind.Matches piece.text := by
  constructor
  · rintro ⟨piece, mismatch⟩
    induction mismatch with
    | here differs => exact ⟨_, List.mem_cons_self, differs⟩
    | later agrees found ih =>
      obtain ⟨piece, member, differs⟩ := ih
      exact ⟨piece, List.mem_cons_of_mem _ member, differs⟩
  · rintro ⟨piece, member, differs⟩
    induction pieces with
    | nil => cases member
    | cons first rest ih =>
      by_cases agrees : first.kind.Matches first.text
      · rcases List.mem_cons.mp member with rfl | among
        · exact absurd agrees differs
        · obtain ⟨other, found⟩ := ih among
          exact ⟨other, .later agrees found⟩
      · exact ⟨first, .here agrees⟩

/-- A computation that fails exactly if a piece is not of its kind, and then with the first such
piece. -/
def ReportsFirst {α : Type} (pieces : List Piece) (outcome : Except OperandFault α) : Prop :=
  ∀ fault, outcome = .error fault ↔
    ∃ piece, FirstMismatch pieces piece ∧ fault = .malformed piece.text piece.kind

theorem ReportsFirst.pure {α : Type} (value : α) :
    ReportsFirst [] (.ok value : Except OperandFault α) := by
  intro fault
  constructor
  · intro failed
    cases failed
  · rintro ⟨piece, mismatch, -⟩
    cases mismatch

theorem ReportsFirst.bind {α β : Type} {piece : Piece} {rest : List Piece}
    {outcome : Except OperandFault α} {next : α → Except OperandFault β}
    (first : ReportsFirst [piece] outcome) (later : ∀ value, ReportsFirst rest (next value)) :
    ReportsFirst (piece :: rest) (outcome >>= next) := by
  intro fault
  cases outcome with
  | error found =>
    obtain ⟨_, mismatch, rfl⟩ := (first found).mp rfl
    cases mismatch with
    | later _ none => cases none
    | here differs =>
      constructor
      · rintro ⟨⟩
        exact ⟨piece, .here differs, rfl⟩
      · rintro ⟨other, mismatch, rfl⟩
        cases mismatch with
        | here _ => rfl
        | later agrees _ => exact absurd agrees differs
  | ok value =>
    have agrees : piece.kind.Matches piece.text := by
      by_contra differs
      cases (first _).mpr ⟨piece, .here differs, rfl⟩
    change next value = .error fault ↔ _
    rw [later value fault]
    constructor
    · rintro ⟨other, mismatch, rfl⟩
      exact ⟨other, .later agrees mismatch, rfl⟩
    · rintro ⟨other, mismatch, rfl⟩
      cases mismatch with
      | here differs => exact absurd agrees differs
      | later _ mismatch => exact ⟨other, mismatch, rfl⟩

theorem reportsFirst_required {α : Type} {kind : OperandKind} {read? : List Char → Option α}
    {text : List Char} (agrees : kind.Matches text ↔ ∃ value, required kind read? text = .ok value) :
    ReportsFirst [⟨kind, text⟩] (required kind read? text) := by
  intro fault
  cases read : read? text with
  | some value =>
    have returned : required kind read? text = .ok value := required_eq_ok_iff.mpr read
    rw [returned]
    constructor
    · intro failed
      cases failed
    · rintro ⟨_, mismatch, -⟩
      cases mismatch with
      | here differs => exact absurd (agrees.mpr ⟨value, returned⟩) differs
      | later _ none => cases none
  | none =>
    have failed : required kind read? text = .error (.malformed text kind) := by
      rw [required, read]
    have differs : ¬kind.Matches text := by
      intro matched
      obtain ⟨value, returned⟩ := agrees.mp matched
      cases failed.symm.trans returned
    rw [failed]
    constructor
    · rintro ⟨⟩
      exact ⟨⟨kind, text⟩, .here differs, rfl⟩
    · rintro ⟨_, mismatch, rfl⟩
      cases mismatch with
      | here _ => rfl
      | later _ none => cases none

theorem reportsFirst_register (text : List Char) :
    ReportsFirst [⟨.register, text⟩] (register text) :=
  reportsFirst_required (exists_congr fun _ => register_eq_ok_iff.symm)

theorem reportsFirst_target (text : List Char) : ReportsFirst [⟨.target, text⟩] (target text) :=
  reportsFirst_required (exists_congr fun _ => target_eq_ok_iff.symm)

theorem reportsFirst_immediate (text : List Char) :
    ReportsFirst [⟨.immediate, text⟩] (immediate text) :=
  reportsFirst_required (exists_congr fun _ => immediate_eq_ok_iff.symm)

theorem reportsFirst_memory (text : List Char) : ReportsFirst [⟨.memory, text⟩] (memory text) :=
  reportsFirst_required (exists_congr fun _ => memory_eq_ok_iff.symm)

/-! ### Formats -/

/-- The kinds of the operands of a mnemonic, as they are written. -/
def Mnemonic.operandKinds : Mnemonic → List OperandKind
  | .alu _ => [.register, .register, .register]
  | .aluImmediate _ | .mfspr | .mtspr => [.register, .register, .immediate]
  | .movhi | .compareImmediate _ => [.register, .immediate]
  | .branch _ => [.target]
  | .registerBranch _ => [.register]
  | .load _ => [.register, .memory]
  | .store _ => [.memory, .register]
  | .compare _ => [.register, .register]
  | .bare _ => []

theorem Mnemonic.length_operandKinds (m : Mnemonic) : m.operandKinds.length = m.arity := by
  cases m <;> rfl

/-- The pieces in the order in which they are read: a memory operand before the others. -/
def Mnemonic.readingOrder (m : Mnemonic) (found : List (List Char)) : List Piece :=
  let written := (m.operandKinds.zip found).map fun (kind, text) => { kind, text : Piece }
  written.filter (·.kind = .memory) ++ written.filter (·.kind ≠ .memory)

theorem Mnemonic.mem_readingOrder {m : Mnemonic} {found : List (List Char)} {piece : Piece} :
    piece ∈ m.readingOrder found ↔ (piece.kind, piece.text) ∈ m.operandKinds.zip found := by
  have written : piece ∈ (m.operandKinds.zip found).map (fun (kind, text) => { kind, text : Piece }) ↔
      (piece.kind, piece.text) ∈ m.operandKinds.zip found := by
    constructor
    · intro member
      obtain ⟨pair, among, rfl⟩ := List.mem_map.mp member
      exact among
    · intro among
      exact List.mem_map.mpr ⟨_, among, rfl⟩
  simp only [readingOrder, List.mem_append, List.mem_filter, written, decide_eq_true_eq]
  tauto

/-- The operation that pieces denote. -/
inductive Operation.WrittenAs : Operation → List (List Char) → Prop where
  | alu {op : Alu} {t₁ t₂ t₃ : List Char} {d a b : Register} (first : RegisterText t₁ d)
      (second : RegisterText t₂ a) (third : RegisterText t₃ b) :
      WrittenAs (.alu op d a b) [t₁, t₂, t₃]
  | aluImmediate {op : AluImmediate} {t₁ t₂ t₃ : List Char} {d a : Register} {i : Int32}
      (first : RegisterText t₁ d) (second : RegisterText t₂ a) (third : ImmediateText t₃ i) :
      WrittenAs (.aluImmediate op d a i) [t₁, t₂, t₃]
  | movhi {t₁ t₂ : List Char} {d : Register} {k : Int32} (first : RegisterText t₁ d)
      (second : ImmediateText t₂ k) : WrittenAs (.movhi d k) [t₁, t₂]
  | branch {op : Branch} {t₁ : List Char} {address : UInt32} (first : TargetText t₁ address) :
      WrittenAs (.branch op address) [t₁]
  | registerBranch {op : RegisterBranch} {t₁ : List Char} {d : Register} (first : RegisterText t₁ d) :
      WrittenAs (.registerBranch op d) [t₁]
  | load {op : Load} {t₁ t₂ : List Char} {d a : Register} {i : Int32} (first : RegisterText t₁ d)
      (second : MemoryText t₂ (i, a)) : WrittenAs (.load op d a i) [t₁, t₂]
  | store {op : Store} {t₁ t₂ : List Char} {d a : Register} {i : Int32}
      (first : MemoryText t₁ (i, d)) (second : RegisterText t₂ a) :
      WrittenAs (.store op d a i) [t₁, t₂]
  | mfspr {t₁ t₂ t₃ : List Char} {d a : Register} {k : Int32} (first : RegisterText t₁ d)
      (second : RegisterText t₂ a) (third : ImmediateText t₃ k) :
      WrittenAs (.mfspr d a k) [t₁, t₂, t₃]
  | mtspr {t₁ t₂ t₃ : List Char} {a b : Register} {k : Int32} (first : RegisterText t₁ a)
      (second : RegisterText t₂ b) (third : ImmediateText t₃ k) :
      WrittenAs (.mtspr a b k) [t₁, t₂, t₃]
  | compare {relation : Comparison} {t₁ t₂ : List Char} {a b : Register} (first : RegisterText t₁ a)
      (second : RegisterText t₂ b) : WrittenAs (.compare relation a b) [t₁, t₂]
  | compareImmediate {relation : Comparison} {t₁ t₂ : List Char} {a : Register} {i : Int32}
      (first : RegisterText t₁ a) (second : ImmediateText t₂ i) :
      WrittenAs (.compareImmediate relation a i) [t₁, t₂]

namespace Operation

variable {m : Mnemonic} {found : List (List Char)} (takesOperands : ∀ op, m ≠ .bare op)

include takesOperands

theorem ofPieces_of_length_ne (differs : found.length ≠ m.arity) :
    ofPieces m found = .error (.count m.arity found.length) := by
  unfold ofPieces
  split
  case h_12 => exact absurd rfl (takesOperands _)
  case h_13 => rfl
  all_goals exact absurd rfl differs

theorem reportsFirst_ofPieces (count : found.length = m.arity) :
    ReportsFirst (m.readingOrder found) (ofPieces m found) := by
  cases m with
  | bare op => exact absurd rfl (takesOperands op)
  | alu op =>
    obtain ⟨d, a, b, rfl⟩ := List.length_eq_three.mp count
    exact (reportsFirst_register d).bind fun _ => (reportsFirst_register a).bind fun _ =>
      (reportsFirst_register b).bind fun _ => .pure _
  | aluImmediate op =>
    obtain ⟨d, a, i, rfl⟩ := List.length_eq_three.mp count
    exact (reportsFirst_register d).bind fun _ => (reportsFirst_register a).bind fun _ =>
      (reportsFirst_immediate i).bind fun _ => .pure _
  | movhi =>
    obtain ⟨d, k, rfl⟩ := List.length_eq_two.mp count
    exact (reportsFirst_register d).bind fun _ => (reportsFirst_immediate k).bind fun _ => .pure _
  | branch op =>
    obtain ⟨n, rfl⟩ := List.length_eq_one_iff.mp count
    exact (reportsFirst_target n).bind fun _ => .pure _
  | registerBranch op =>
    obtain ⟨d, rfl⟩ := List.length_eq_one_iff.mp count
    exact (reportsFirst_register d).bind fun _ => .pure _
  | load op =>
    -- The memory operand is the second piece, but it is read first.
    obtain ⟨d, cell, rfl⟩ := List.length_eq_two.mp count
    exact (reportsFirst_memory cell).bind fun _ => (reportsFirst_register d).bind fun _ => .pure _
  | store op =>
    obtain ⟨cell, a, rfl⟩ := List.length_eq_two.mp count
    exact (reportsFirst_memory cell).bind fun _ => (reportsFirst_register a).bind fun _ => .pure _
  | mfspr =>
    obtain ⟨d, a, k, rfl⟩ := List.length_eq_three.mp count
    exact (reportsFirst_register d).bind fun _ => (reportsFirst_register a).bind fun _ =>
      (reportsFirst_immediate k).bind fun _ => .pure _
  | mtspr =>
    obtain ⟨a, b, k, rfl⟩ := List.length_eq_three.mp count
    exact (reportsFirst_register a).bind fun _ => (reportsFirst_register b).bind fun _ =>
      (reportsFirst_immediate k).bind fun _ => .pure _
  | compare relation =>
    obtain ⟨a, b, rfl⟩ := List.length_eq_two.mp count
    exact (reportsFirst_register a).bind fun _ => (reportsFirst_register b).bind fun _ => .pure _
  | compareImmediate relation =>
    obtain ⟨a, i, rfl⟩ := List.length_eq_two.mp count
    exact (reportsFirst_register a).bind fun _ => (reportsFirst_immediate i).bind fun _ => .pure _

theorem writtenAs_of_ofPieces {operation : Operation} (returned : ofPieces m found = .ok operation) :
    operation.mnemonic = m ∧ operation.WrittenAs found := by
  have count : found.length = m.arity := by
    by_contra differs
    cases (ofPieces_of_length_ne takesOperands differs).symm.trans returned
  cases m with
  | bare op => exact absurd rfl (takesOperands op)
  | alu op =>
    obtain ⟨t₁, t₂, t₃, rfl⟩ := List.length_eq_three.mp count
    simp only [ofPieces, bind_eq_ok_iff, register_eq_ok_iff, pure_eq_ok_iff] at returned
    obtain ⟨d, first, a, second, b, third, rfl⟩ := returned
    exact ⟨rfl, .alu first second third⟩
  | aluImmediate op =>
    obtain ⟨t₁, t₂, t₃, rfl⟩ := List.length_eq_three.mp count
    simp only [ofPieces, bind_eq_ok_iff, register_eq_ok_iff, immediate_eq_ok_iff, pure_eq_ok_iff]
      at returned
    obtain ⟨d, first, a, second, i, third, rfl⟩ := returned
    exact ⟨rfl, .aluImmediate first second third⟩
  | movhi =>
    obtain ⟨t₁, t₂, rfl⟩ := List.length_eq_two.mp count
    simp only [ofPieces, bind_eq_ok_iff, register_eq_ok_iff, immediate_eq_ok_iff, pure_eq_ok_iff]
      at returned
    obtain ⟨d, first, k, second, rfl⟩ := returned
    exact ⟨rfl, .movhi first second⟩
  | branch op =>
    obtain ⟨t₁, rfl⟩ := List.length_eq_one_iff.mp count
    simp only [ofPieces, bind_eq_ok_iff, target_eq_ok_iff, pure_eq_ok_iff] at returned
    obtain ⟨address, first, rfl⟩ := returned
    exact ⟨rfl, .branch first⟩
  | registerBranch op =>
    obtain ⟨t₁, rfl⟩ := List.length_eq_one_iff.mp count
    simp only [ofPieces, bind_eq_ok_iff, register_eq_ok_iff, pure_eq_ok_iff] at returned
    obtain ⟨d, first, rfl⟩ := returned
    exact ⟨rfl, .registerBranch first⟩
  | load op =>
    obtain ⟨t₁, t₂, rfl⟩ := List.length_eq_two.mp count
    simp only [ofPieces, bind_eq_ok_iff, register_eq_ok_iff, memory_eq_ok_iff, pure_eq_ok_iff]
      at returned
    obtain ⟨⟨i, a⟩, second, d, first, rfl⟩ := returned
    exact ⟨rfl, .load first second⟩
  | store op =>
    obtain ⟨t₁, t₂, rfl⟩ := List.length_eq_two.mp count
    simp only [ofPieces, bind_eq_ok_iff, register_eq_ok_iff, memory_eq_ok_iff, pure_eq_ok_iff]
      at returned
    obtain ⟨⟨i, d⟩, first, a, second, rfl⟩ := returned
    exact ⟨rfl, .store first second⟩
  | mfspr =>
    obtain ⟨t₁, t₂, t₃, rfl⟩ := List.length_eq_three.mp count
    simp only [ofPieces, bind_eq_ok_iff, register_eq_ok_iff, immediate_eq_ok_iff, pure_eq_ok_iff]
      at returned
    obtain ⟨d, first, a, second, k, third, rfl⟩ := returned
    exact ⟨rfl, .mfspr first second third⟩
  | mtspr =>
    obtain ⟨t₁, t₂, t₃, rfl⟩ := List.length_eq_three.mp count
    simp only [ofPieces, bind_eq_ok_iff, register_eq_ok_iff, immediate_eq_ok_iff, pure_eq_ok_iff]
      at returned
    obtain ⟨a, first, b, second, k, third, rfl⟩ := returned
    exact ⟨rfl, .mtspr first second third⟩
  | compare relation =>
    obtain ⟨t₁, t₂, rfl⟩ := List.length_eq_two.mp count
    simp only [ofPieces, bind_eq_ok_iff, register_eq_ok_iff, pure_eq_ok_iff] at returned
    obtain ⟨a, first, b, second, rfl⟩ := returned
    exact ⟨rfl, .compare first second⟩
  | compareImmediate relation =>
    obtain ⟨t₁, t₂, rfl⟩ := List.length_eq_two.mp count
    simp only [ofPieces, bind_eq_ok_iff, register_eq_ok_iff, immediate_eq_ok_iff, pure_eq_ok_iff]
      at returned
    obtain ⟨a, first, i, second, rfl⟩ := returned
    exact ⟨rfl, .compareImmediate first second⟩

omit takesOperands in
theorem WrittenAs.ofPieces_eq {operation : Operation} (written : operation.WrittenAs found) :
    ofPieces operation.mnemonic found = .ok operation := by
  cases written with
  | alu first second third | aluImmediate first second third | mfspr first second third
  | mtspr first second third =>
    simp only [mnemonic, ofPieces, bind_eq_ok_iff, register_eq_ok_iff, immediate_eq_ok_iff,
      pure_eq_ok_iff]
    exact ⟨_, first, _, second, _, third, rfl⟩
  | movhi first second | compare first second | compareImmediate first second =>
    simp only [mnemonic, ofPieces, bind_eq_ok_iff, register_eq_ok_iff, immediate_eq_ok_iff,
      pure_eq_ok_iff]
    exact ⟨_, first, _, second, rfl⟩
  | branch first | registerBranch first =>
    simp only [mnemonic, ofPieces, bind_eq_ok_iff, register_eq_ok_iff, target_eq_ok_iff,
      pure_eq_ok_iff]
    exact ⟨_, first, rfl⟩
  | load first second =>
    simp only [mnemonic, ofPieces, bind_eq_ok_iff, register_eq_ok_iff, memory_eq_ok_iff,
      pure_eq_ok_iff]
    exact ⟨_, second, _, first, rfl⟩
  | store first second =>
    simp only [mnemonic, ofPieces, bind_eq_ok_iff, register_eq_ok_iff, memory_eq_ok_iff,
      pure_eq_ok_iff]
    exact ⟨_, first, _, second, rfl⟩

theorem ofPieces_eq_ok_iff {operation : Operation} :
    ofPieces m found = .ok operation ↔ operation.mnemonic = m ∧ operation.WrittenAs found := by
  constructor
  · exact writtenAs_of_ofPieces takesOperands
  · rintro ⟨rfl, written⟩
    exact written.ofPieces_eq

theorem ofPieces_eq_error_iff {fault : OperandFault} :
    ofPieces m found = .error fault ↔
      found.length ≠ m.arity ∧ fault = .count m.arity found.length ∨
        found.length = m.arity ∧ ∃ piece, FirstMismatch (m.readingOrder found) piece ∧
          fault = .malformed piece.text piece.kind := by
  by_cases count : found.length = m.arity
  · rw [reportsFirst_ofPieces takesOperands count fault]
    simp [count]
  · rw [ofPieces_of_length_ne takesOperands count]
    simp [count, eq_comm]

theorem exists_ofPieces_iff :
    (∃ operation, ofPieces m found = .ok operation) ↔
      List.Forall₂ OperandKind.Matches m.operandKinds found := by
  rw [List.forall₂_iff_zip, Mnemonic.length_operandKinds]
  constructor
  · rintro ⟨operation, returned⟩
    have noFault (fault : OperandFault) : ¬ofPieces m found = .error fault := by
      rw [returned]
      exact nofun
    have count : found.length = m.arity := by
      by_contra differs
      exact noFault _ ((ofPieces_eq_error_iff takesOperands).mpr (.inl ⟨differs, rfl⟩))
    refine ⟨count.symm, ?_⟩
    intro kind text written
    by_contra differs
    obtain ⟨piece, mismatch⟩ := exists_firstMismatch_iff.mpr
      ⟨⟨kind, text⟩, Mnemonic.mem_readingOrder.mpr written, differs⟩
    exact noFault _ ((ofPieces_eq_error_iff takesOperands).mpr (.inr ⟨count, piece, mismatch, rfl⟩))
  · rintro ⟨count, kinds⟩
    cases returned : ofPieces m found with
    | ok operation => exact ⟨operation, rfl⟩
    | error fault =>
      rcases (ofPieces_eq_error_iff takesOperands).mp returned with
        ⟨differs, -⟩ | ⟨-, piece, mismatch, -⟩
      · exact absurd count.symm differs
      · obtain ⟨other, member, differs⟩ := exists_firstMismatch_iff.mp ⟨piece, mismatch⟩
        exact absurd (kinds (Mnemonic.mem_readingOrder.mp member)) differs

end Operation

/-! ### Decoding -/

/-- The pieces of a text: what stands between its commas, trimmed. -/
def Operand.ArePieces (text : List Char) (found : List (List Char)) : Prop :=
  ∃ parts, parts ≠ [] ∧ (∀ part ∈ parts, ',' ∉ part) ∧ [','].intercalate parts = text ∧
    found = parts.map trim

theorem Operand.arePieces_iff {text : List Char} {found : List (List Char)} :
    ArePieces text found ↔ found = pieces text := by
  constructor
  · rintro ⟨parts, nonempty, clear, rfl, rfl⟩
    rw [pieces, split_intercalate nonempty clear]
  · rintro rfl
    exact ⟨split ',' text, split_ne_nil _ _, fun _ member => not_mem_of_mem_split member,
      intercalate_split _ _, rfl⟩

/-- Decoding succeeds exactly if the text has as many pieces as the mnemonic has operands and each
piece is of its kind, and the operation is the one that the pieces denote. It fails with the number
of pieces if that is wrong, and else with the first piece, in the order of reading, that is not of
its kind. -/
theorem Operation.decode_matches_grammar (m : Mnemonic) (takesOperands : ∀ op, m ≠ .bare op)
    (text : List Char) (address : UInt32) :
    ∃ found, (∀ other, ArePieces text other ↔ other = found) ∧
      ((∃ operation, (decode m text).mapError (Fault.ofOperands address m) = .ok operation) ↔
        List.Forall₂ OperandKind.Matches m.operandKinds found) ∧
      (∀ operation, (decode m text).mapError (Fault.ofOperands address m) = .ok operation ↔
        operation.mnemonic = m ∧ operation.WrittenAs found) ∧
      ∀ fault, (decode m text).mapError (Fault.ofOperands address m) = .error fault ↔
        found.length ≠ m.arity ∧ fault = .operandCount address m m.arity found.length ∨
          found.length = m.arity ∧ ∃ piece, FirstMismatch (m.readingOrder found) piece ∧
            fault = .malformedOperand address (String.ofList piece.text) piece.kind := by
  refine ⟨pieces text, fun _ => arePieces_iff, ?_⟩
  simp only [decode, mapError_eq_ok_iff, mapError_eq_error_iff]
  refine ⟨exists_ofPieces_iff takesOperands, fun _ => ofPieces_eq_ok_iff takesOperands, ?_⟩
  intro fault
  simp only [ofPieces_eq_error_iff takesOperands]
  constructor
  · rintro ⟨_, ⟨differs, rfl⟩ | ⟨count, piece, mismatch, rfl⟩, rfl⟩
    · exact .inl ⟨differs, rfl⟩
    · exact .inr ⟨count, piece, mismatch, rfl⟩
  · rintro (⟨differs, rfl⟩ | ⟨count, piece, mismatch, rfl⟩)
    · exact ⟨_, .inl ⟨differs, rfl⟩, rfl⟩
    · exact ⟨_, .inr ⟨count, piece, mismatch, rfl⟩, rfl⟩

/-- Of two wrong operands of a load the memory operand is reported, which is written last. -/
theorem Operation.decode_matches_grammar_load :
    (∀ op, Mnemonic.load .lwz ≠ .bare op) ∧
      (decode (.load .lwz) "r40 ,\t0x4(r1)".toList).mapError (Fault.ofOperands 0x100 (.load .lwz)) =
        .error (.malformedOperand 0x100 "0x4(r1)" .memory) := by
  have takesOperands (op : Bare) : Mnemonic.load .lwz ≠ .bare op := nofun
  obtain ⟨found, cut, -, -, fails⟩ :=
    decode_matches_grammar (.load .lwz) takesOperands "r40 ,\t0x4(r1)".toList 0x100
  obtain rfl := (cut ["r40".toList, "0x4(r1)".toList]).mp
    ⟨["r40 ".toList, "\t0x4(r1)".toList], by decide, by decide, by decide, by decide⟩
  have differs : ¬OperandKind.memory.Matches "0x4(r1)".toList := by
    rintro ⟨cell, written⟩
    have read := memory?_eq_some_iff.mpr written
    have refused : memory? "0x4(r1)".toList = none := by decide
    cases refused.symm.trans read
  exact ⟨takesOperands, (fails _).mpr (.inr ⟨rfl, ⟨.memory, _⟩, .here differs, by decide⟩)⟩

end Disassembly.Isa
