import Disassembly.Proofs.Cutting
import Disassembly.Proofs.Execution
import Disassembly.Proofs.Numerals

/-!
# What expressions denote

An operation on values that are not known is shown as an expression. Here expressions are read again,
from their text and against a register file: a sum, a difference, a logical operation, a shift or a
copy of 32-bit words, with shift amounts modulo 32. Read that way, the expression of an operation on
registers denotes what folding would have put in its place. With an immediate it does so exactly if
the immediate is one that the instruction can hold, because logical operations show half a word and
fold a whole one.
-/

namespace Disassembly.Pseudocode

open Isa Text

/-! ### Reading expressions -/

/-- The register with a name of pseudo-code. -/
def register? (word : List Char) : Option Register :=
  Register.all.find? fun r => r.role.toList == word

/-- A hexadecimal number behind its marker, or a decimal number. -/
def number? : List Char → Option Nat
  | '0' :: 'x' :: digits => readHex? digits
  | digits => readDecimal? digits

/-- The word that a register or a number stands for. -/
def atomValue? (file : RegisterFile) (word : List Char) : Option (BitVec 32) :=
  match register? word with
  | some r => some (file.read r)
  | none => (number? word).map (BitVec.ofNat 32)

/-- The word that an operand stands for, which may have a sign. -/
def operandValue? (file : RegisterFile) : List Char → Option (BitVec 32)
  | '-' :: word => (atomValue? file word).map fun value => -value
  | word => atomValue? file word

/-- The operation of a sign between two operands. -/
def sign? : List Char → Option Alu
  | ['+'] => some .add
  | ['-'] => some .sub
  | ['&'] => some .and
  | ['^'] => some .xor
  | ['|'] => some .or
  | ['*'] => some .mul
  | ['<', '<'] => some .sll
  | ['r', 'o', 'r'] => some .ror
  | _ => none

/-- The right shift that a word in front of it selects. -/
def rightShift? : List Char → Option Alu
  | ['a', 'r', 'i', 't', 'h'] => some .sra
  | ['l', 'o', 'g', 'i', 'c', 'a', 'l'] => some .srl
  | _ => none

/-- The word that the text of an expression denotes. -/
def evaluate? (file : RegisterFile) (text : List Char) : Option (BitVec 32) :=
  match split ' ' text with
  | [word] => operandValue? file word
  -- `A1 + 4`
  | [left, sign, right] => do
    compute (← sign? sign) (← operandValue? file left) (← operandValue? file right)
  -- `arith A1 >> 4`
  | [reading, left, ['>', '>'], right] => do
    compute (← rightShift? reading) (← operandValue? file left) (← operandValue? file right)
  | _ => none

/-! ### What was meant -/

def Term.value (file : RegisterFile) : Term → BitVec 32
  | .register r => file.read r
  | .decimal value => BitVec.ofInt 32 value
  | .word value => value.toBitVec

def Expression.value (file : RegisterFile) : Expression → BitVec 32
  | .copy a => file.read a
  | .negate a => -file.read a
  | .apply op a b => compute op (file.read a) (b.value file)

/-! ### Names and numbers -/

theorem register?_role (r : Register) : register? r.role.toList = some r := by
  obtain ⟨index⟩ := r
  revert index
  decide +kernel

/-- Names hold neither blanks nor signs. -/
theorem not_mem_role (r : Register) : ' ' ∉ r.role.toList ∧ '-' ∉ r.role.toList := by
  obtain ⟨index⟩ := r
  revert index
  decide +kernel

/-- The only name that is a number is that of `r0`, which holds that number. -/
theorem number?_role (r : Register) :
    number? r.role.toList = if r = .zero then some 0 else none := by
  obtain ⟨index⟩ := r
  revert index
  decide +kernel

theorem role_of_register? {word : List Char} {r : Register} (found : register? word = some r) :
    r.role.toList = word := by
  simpa using List.find?_some found

theorem atomValue?_of_number (file : RegisterFile) {word : List Char} {n : Nat}
    (read : number? word = some n) : atomValue? file word = some (BitVec.ofNat 32 n) := by
  unfold atomValue?
  cases found : register? word with
  | none => simp [read]
  | some r =>
    rw [← role_of_register? found, number?_role] at read
    split at read
    · next zero =>
      cases read
      exact congrArg some (zero ▸ file.read_zero)
    · cases read

theorem not_mem_of_decimal {digits : List Char} {n : Nat} (numeral : Numeral 10 digits n) {c : Char}
    (other : decimalDigit? c = none) : c ∉ digits := by
  intro member
  have digit := isSome_decimalDigit?_of_mem numeral member
  simp [other] at digit

theorem number?_of_decimal {digits : List Char} {n : Nat} (numeral : Numeral 10 digits n) :
    number? digits = some n := by
  unfold number?
  split
  · -- The marker is no decimal digit.
    exact absurd (by simp) (not_mem_of_decimal numeral (show decimalDigit? 'x' = none by decide))
  · exact readDecimal?_eq_some_iff.mpr numeral

theorem number?_of_hex {digits : List Char} {n : Nat} (numeral : Numeral 16 digits n) :
    number? ('0' :: 'x' :: digits) = some n :=
  (readNumber?_eq_some_iff fun _ _ => hexDigit?_eq_some_iff).mpr numeral

/-! ### Operands -/

/-- Without a sign, an operand is a register or a number. -/
theorem operandValue?_of_no_sign (file : RegisterFile) {word : List Char} (plain : '-' ∉ word) :
    operandValue? file word = atomValue? file word := by
  unfold operandValue?
  split
  · exact absurd List.mem_cons_self plain
  · rfl

theorem operandValue?_role (file : RegisterFile) (r : Register) :
    operandValue? file r.role.toList = some (file.read r) := by
  rw [operandValue?_of_no_sign file (not_mem_role r).2, atomValue?, register?_role]

theorem operandValue?_hex (file : RegisterFile) {digits : List Char} {n : Nat}
    (numeral : Numeral 16 digits n) :
    operandValue? file ('0' :: 'x' :: digits) = some (BitVec.ofNat 32 n) :=
  atomValue?_of_number file (number?_of_hex numeral)

theorem blank_not_mem_hex {digits : List Char} {n : Nat} (numeral : Numeral 16 digits n) :
    ' ' ∉ '0' :: 'x' :: digits := by
  intro member
  rcases List.mem_cons.mp member with zero | member
  · cases zero
  · rcases List.mem_cons.mp member with marker | member
    · cases marker
    · exact absurd (isHexDigit_iff.mpr (numeral.isDigit_of_mem member)) (by decide)

theorem operandValue?_repr (file : RegisterFile) (value : Int) :
    operandValue? file (Int.repr value).toList = some (BitVec.ofInt 32 value) := by
  rw [Int.repr_eq_if]
  split
  · next positive =>
    obtain ⟨n, rfl⟩ := Int.eq_ofNat_of_zero_le positive
    have numeral := numeral_toDigits (by decide : 1 < 10) n
    rw [Int.toNat_natCast, Nat.toList_repr,
      operandValue?_of_no_sign file (not_mem_of_decimal numeral (by decide)),
      atomValue?_of_number file (number?_of_decimal numeral), BitVec.ofInt_natCast]
  · next negative =>
    -- The sign is read apart from the number behind it.
    obtain ⟨n, same⟩ := Int.eq_ofNat_of_zero_le (show 0 ≤ -value by omega)
    have numeral := numeral_toDigits (by decide : 1 < 10) n
    have read := atomValue?_of_number file (number?_of_decimal numeral)
    rw [String.toList_append, same, Int.toNat_natCast, Nat.toList_repr]
    change (atomValue? file (Nat.toDigits 10 n)).map _ = _
    rw [read, ← Int.neg_neg value, same, BitVec.ofInt_neg, BitVec.ofInt_natCast, Option.map_some]

theorem blank_not_mem_repr (value : Int) : ' ' ∉ (Int.repr value).toList := by
  have clear (n : Nat) : ' ' ∉ n.repr.toList := by
    rw [Nat.toList_repr]
    exact not_mem_of_decimal (numeral_toDigits (by decide) n) (by decide)
  rw [Int.repr_eq_if]
  split
  · exact clear _
  · rw [String.toList_append, List.mem_append, not_or]
    exact ⟨by decide, clear _⟩

theorem toList_hexWord (word : UInt32) :
    (hexWord word).toList = '0' :: 'x' :: padded 16 8 word.toNat := by
  simp [hexWord, hexPadded]

namespace Term

theorem blank_not_mem_text (term : Term) : ' ' ∉ term.text.toList := by
  cases term with
  | register r => exact (not_mem_role r).1
  | decimal value => exact blank_not_mem_repr value
  | word value =>
    rw [text, toList_hexWord]
    exact blank_not_mem_hex (numeral_padded (by decide) 8 value.toNat)

/-- Operands are read as the words that were meant. -/
theorem operandValue?_text (file : RegisterFile) (term : Term) :
    operandValue? file term.text.toList = some (term.value file) := by
  cases term with
  | register r => exact operandValue?_role file r
  | decimal value => exact operandValue?_repr file value
  | word value =>
    rw [text, toList_hexWord, operandValue?_hex file (numeral_padded (by decide) 8 value.toNat)]
    exact congrArg some (BitVec.ofNat_toNat 32 value.toBitVec)

end Term

/-! ### Expressions -/

section Evaluate

variable {file : RegisterFile} {left right : List Char} {x y : BitVec 32}
  (leftClear : ' ' ∉ left) (rightClear : ' ' ∉ right)
  (leftRead : operandValue? file left = some x) (rightRead : operandValue? file right = some y)

include leftClear leftRead

theorem evaluate?_operand : evaluate? file left = some x := by
  rw [evaluate?, split_of_not_mem leftClear]
  exact leftRead

include rightClear rightRead

theorem evaluate?_sign {op : Alu} {sign : List Char} (selected : sign? sign = some op)
    (signClear : ' ' ∉ sign) :
    evaluate? file (left ++ ' ' :: (sign ++ ' ' :: right)) = some (compute op x y) := by
  rw [evaluate?, split_append_cons leftClear, split_append_cons signClear,
    split_of_not_mem rightClear]
  simp [selected, leftRead, rightRead]

theorem evaluate?_rightShift {op : Alu} {reading : List Char}
    (selected : rightShift? reading = some op) (readingClear : ' ' ∉ reading) :
    evaluate? file (reading ++ ' ' :: (left ++ ' ' :: '>' :: '>' :: ' ' :: right)) =
      some (compute op x y) := by
  have sign : split ' ' ('>' :: '>' :: ' ' :: right) = [['>', '>'], right] := by
    rw [← split_of_not_mem rightClear]
    exact split_append_cons (by decide : ' ' ∉ ['>', '>']) right
  rw [evaluate?, split_append_cons readingClear, split_append_cons leftClear, sign]
  simp [selected, leftRead, rightRead]

end Evaluate

/-- Expressions are read as what was meant. -/
theorem Expression.evaluate?_text (file : RegisterFile) (e : Expression) :
    evaluate? file e.text.toList = some (e.value file) := by
  cases e with
  | copy a => exact evaluate?_operand (not_mem_role a).1 (operandValue?_role file a)
  | negate a =>
    have clear : ' ' ∉ '-' :: a.role.toList := by simp [(not_mem_role a).1]
    have read : operandValue? file ('-' :: a.role.toList) = some (-file.read a) := by
      simp [operandValue?, atomValue?, register?_role]
    rw [text, String.toList_append]
    exact evaluate?_operand clear read
  | apply op a b =>
    have between (sign : List Char) (selected : sign? sign = some op) (clear : ' ' ∉ sign) :=
      evaluate?_sign (not_mem_role a).1 b.blank_not_mem_text (operandValue?_role file a)
        (b.operandValue?_text file) selected clear
    have shifted (reading : List Char) (selected : rightShift? reading = some op)
        (clear : ' ' ∉ reading) :=
      evaluate?_rightShift (not_mem_role a).1 b.blank_not_mem_text (operandValue?_role file a)
        (b.operandValue?_text file) selected clear
    cases op with
    | add => simpa [text, value] using between "+".toList rfl (by decide)
    | sub => simpa [text, value] using between "-".toList rfl (by decide)
    | and => simpa [text, value] using between "&".toList rfl (by decide)
    | xor => simpa [text, value] using between "^".toList rfl (by decide)
    | or => simpa [text, value] using between "|".toList rfl (by decide)
    | mul => simpa [text, value] using between "*".toList rfl (by decide)
    | sll => simpa [text, value] using between "<<".toList rfl (by decide)
    | ror => simpa [text, value] using between "ror".toList rfl (by decide)
    | sra => simpa [text, value] using shifted "arith".toList rfl (by decide)
    | srl => simpa [text, value] using shifted "logical".toList rfl (by decide)

/-! ### Folding -/

/-- The immediates that an instruction has room for. -/
def InRange : AluImmediate → Int32 → Prop
  | .andi, i | .ori, i => 0 ≤ i ∧ i ≤ 0xffff
  | .xori, i => -0x8000 ≤ i ∧ i ≤ 0x7fff
  | .addi, _ | .slli, _ | .srai, _ | .srli, _ | .rori, _ => True

/-- The word that is shown for an immediate. -/
def shownImmediate (op : AluImmediate) (i : Int32) : BitVec 32 :=
  match op with
  | .andi | .ori => i.toBitVec &&& 0xffff
  | .xori => (i.toBitVec.signExtend 16).signExtend 32
  | .addi | .slli | .srai | .srli | .rori => i.toBitVec

theorem value_symbolic (file : RegisterFile) (op : Alu) (a b : Register) :
    (symbolic op a b).value file = compute op (file.read a) (file.read b) := by
  by_cases zero : a = .zero
  · -- Sums and differences leave the zero out.
    subst zero
    cases op <;> simp [symbolic, Register.isZero, Expression.value, Term.value, compute,
      file.read_zero]
  · cases op <;> simp [symbolic, Register.isZero, zero, Expression.value, Term.value]

theorem value_symbolicImmediate (file : RegisterFile) (op : AluImmediate) (a : Register)
    (i : Int32) :
    (symbolicImmediate op a i).value file =
      compute (aluOf op) (file.read a) (shownImmediate op i) := by
  cases op with
  | addi =>
    unfold symbolicImmediate
    dsimp only
    split
    · -- A negative immediate is taken away; its opposite need not fit a word.
      simp [Expression.value, Term.value, shownImmediate, aluOf, compute, BitVec.ofInt_neg]
    · split
      · next zero => simp [zero, Expression.value, shownImmediate, aluOf, compute]
      · simp [Expression.value, Term.value, shownImmediate, aluOf, compute]
  | ori =>
    unfold symbolicImmediate
    dsimp only
    split
    · next zero => simp [zero, Expression.value, shownImmediate, aluOf, compute]
    · simp [Expression.value, Term.value, shownImmediate, aluOf]
  | xori =>
    simp [symbolicImmediate, Expression.value, Term.value, shownImmediate, aluOf, signExtendHalf]
  | andi | slli | srai | srli | rori =>
    simp [symbolicImmediate, Expression.value, Term.value, shownImmediate, aluOf]

theorem toNat_low_half (word : BitVec 32) : (word &&& 0xffff).toNat = word.toNat % 65536 := by
  rw [BitVec.toNat_and]
  exact Nat.and_two_pow_sub_one_eq_mod _ 16

theorem toInt_eq_toNat_cond (i : Int32) :
    i.toInt = if 2 * i.toBitVec.toNat < 4294967296 then (i.toBitVec.toNat : Int)
      else i.toBitVec.toNat - 4294967296 :=
  BitVec.toInt_eq_toNat_cond i.toBitVec

theorem low_half_eq_self_iff (i : Int32) :
    i.toBitVec &&& 0xffff = i.toBitVec ↔ 0 ≤ i ∧ i ≤ 0xffff := by
  have bound := i.toBitVec.isLt
  rw [← BitVec.toNat_inj, toNat_low_half, Int32.le_iff_toInt_le, Int32.le_iff_toInt_le,
    toInt_eq_toNat_cond i]
  change _ ↔ 0 ≤ _ ∧ _ ≤ 65535
  split <;> omega

theorem signExtend_half_eq_self_iff (i : Int32) :
    (i.toBitVec.signExtend 16).signExtend 32 = i.toBitVec ↔ -0x8000 ≤ i ∧ i ≤ 0x7fff := by
  rw [← BitVec.toInt_inj, BitVec.toInt_signExtend, BitVec.toInt_signExtend, Int32.le_iff_toInt_le,
    Int32.le_iff_toInt_le]
  -- Cut to a half and widened again, a number becomes its remainder next to zero.
  change (i.toInt.bmod 65536).bmod 65536 = i.toInt ↔ -32768 ≤ i.toInt ∧ i.toInt ≤ 32767
  rw [Int.bmod_bmod, Int.bmod_def]
  omega

theorem shownImmediate_eq_iff (op : AluImmediate) (i : Int32) :
    shownImmediate op i = i.toBitVec ↔ InRange op i := by
  cases op with
  | andi | ori => exact low_half_eq_self_iff i
  | xori => exact signExtend_half_eq_self_iff i
  | addi | slli | srai | srli | rori => simp [shownImmediate, InRange]

/-- A logical operation with all words shows its second operand. -/
theorem eq_of_compute_eq {op : Alu} (logical : op = .and ∨ op = .or ∨ op = .xor) {v w : BitVec 32}
    (agree : ∀ x, compute op x v = compute op x w) : v = w := by
  rcases logical with rfl | rfl | rfl
  · have ones := agree (BitVec.allOnes 32)
    rwa [compute, compute, BitVec.allOnes_and, BitVec.allOnes_and] at ones
  · simpa [compute] using agree 0
  · simpa [compute] using agree 0

theorem compute_shownImmediate_iff (op : AluImmediate) (i : Int32) :
    (∀ x, compute (aluOf op) x (shownImmediate op i) = compute (aluOf op) x i.toBitVec) ↔
      InRange op i := by
  rw [← shownImmediate_eq_iff]
  constructor
  · intro agree
    cases op with
    | andi => exact eq_of_compute_eq (.inl rfl) agree
    | ori => exact eq_of_compute_eq (.inr (.inl rfl)) agree
    | xori => exact eq_of_compute_eq (.inr (.inr rfl)) agree
    | addi | slli | srai | srli | rori => rfl
  · intro same x
    rw [same]

/-- Exactly these operations are folded, on all words. -/
theorem isSome_fold?_iff (op : Alu) (x y : Int32) :
    (fold? op x y).isSome = true ↔ op ∈ [.add, .sub, .and, .xor, .or, .sll, .sra] := by
  cases op <;> simp [fold?]

/-! ### Upper halves -/

theorem evaluate?_hex (file : RegisterFile) {digits : List Char} {n : Nat}
    (numeral : Numeral 16 digits n) :
    evaluate? file ('0' :: 'x' :: digits) = some (BitVec.ofNat 32 n) :=
  evaluate?_operand (blank_not_mem_hex numeral) (operandValue?_hex file numeral)

theorem numeral_append_zeros {digits : List Char} {n : Nat} (numeral : Numeral 16 digits n) :
    Numeral 16 (digits ++ ['0', '0', '0', '0']) (65536 * n) := by
  have zero : IsDigit 16 '0' 0 := ⟨by decide, .inl rfl⟩
  have grown := (((numeral.snoc zero).snoc zero).snoc zero).snoc zero
  simpa [← Nat.mul_assoc] using grown

theorem toList_highText {k : Int32} (nonzero : k ≠ 0) :
    (highText k).toList =
      '0' :: 'x' :: (padded 16 4 (k &&& 0xffff).toInt.toNat ++ ['0', '0', '0', '0']) := by
  simp [highText, nonzero, hexPadded]

/-- The upper half is shown as four digits in front of four zeros. -/
theorem exists_numeral_highText {k : Int32} (nonzero : k ≠ 0) :
    ∃ digits, (highText k).toList = '0' :: 'x' :: digits ∧
      Numeral 16 digits (k <<< 16).toBitVec.toNat := by
  have half : (k &&& 0xffff).toInt.toNat = k.toBitVec.toNat % 65536 := by
    rw [toInt_eq_toNat_cond, Int32.toBitVec_and]
    change (if 2 * (k.toBitVec &&& 0xffff).toNat < _ then _ else _ : Int).toNat = _
    rw [toNat_low_half, if_pos (by omega), Int.toNat_natCast]
    exact toNat_low_half k.toBitVec
  have shifted : (k <<< 16).toBitVec.toNat = 65536 * (k.toBitVec.toNat % 65536) := by
    rw [toBitVec_shiftLeft_half, BitVec.toNat_mul]
    change (k.toBitVec.toNat * 65536) % 4294967296 = _
    omega
  refine ⟨_, toList_highText nonzero, ?_⟩
  rw [shifted, ← half]
  exact numeral_append_zeros (numeral_padded (by decide) 4 _)

theorem evaluate?_highText (file : RegisterFile) (k : Int32) :
    evaluate? file (highText k).toList = some (k <<< 16).toBitVec := by
  by_cases zero : k = 0
  · -- Zero is a single digit, which is the name of `r0` as well.
    subst zero
    have read := operandValue?_role file .zero
    rw [file.read_zero] at read
    exact evaluate?_operand (not_mem_role .zero).1 read
  · obtain ⟨digits, text, numeral⟩ := exists_numeral_highText zero
    rw [text, evaluate?_hex file numeral, BitVec.ofNat_toNat, BitVec.setWidth_eq]

/-! ### Both renderings -/

theorem folded?_of_unknown {k : Knowledge} {a b : Register}
    (unknown : k.get? a = none ∨ k.get? b = none) (op : Alu) : folded? k op a b = none := by
  rcases unknown with left | right
  · simp [folded?, left]
  · cases left : k.get? a <;> simp [folded?, left, right]

/-- An operation on registers denotes what folding it results in. -/
theorem evaluate?_symbolic {op : Alu} {x y value : Int32} (folded : fold? op x y = some value)
    {file : RegisterFile} {a b : Register} (left : file.read a = x.toBitVec)
    (right : file.read b = y.toBitVec) :
    evaluate? file (symbolic op a b).text.toList = some value.toBitVec := by
  rw [Expression.evaluate?_text, value_symbolic, left, right, fold?_sound folded]

/-- An operation with an immediate does so if the immediate is in range, and only then. -/
theorem forall_evaluate?_symbolicImmediate_iff (op : AluImmediate) {a : Register} (i : Int32)
    (nonzero : a ≠ .zero) :
    (∀ x value, fold? (aluOf op) x i = some value → ∀ file : RegisterFile,
      file.read a = x.toBitVec →
        evaluate? file (symbolicImmediate op a i).text.toList = some value.toBitVec) ↔
      InRange op i := by
  have denotes (file : RegisterFile) := Expression.evaluate?_text file (symbolicImmediate op a i)
  simp only [denotes, value_symbolicImmediate, Option.some.injEq]
  rw [← compute_shownImmediate_iff]
  constructor
  · intro agree word
    -- Any word can be in the register, which is not `r0`.
    have held := RegisterFile.write_read_self nonzero .cleared word
    cases folded : fold? (aluOf op) (Int32.ofBitVec word) i with
    | none =>
      -- The operations that are never folded show the whole immediate.
      cases op with
      | srli | rori => rfl
      | addi | andi | xori | ori | slli | srai => cases folded
    | some value =>
      have shown := agree (Int32.ofBitVec word) value folded _ held
      rw [held] at shown
      exact shown.trans (fold?_sound folded).symm
  · intro same x value folded file held
    rw [same, held]
    exact fold?_sound folded

/-- What is shown for an unknown result denotes the result that is known when the operands are. For
operations on registers this holds on all words, with an immediate exactly on those in range, and
for upper halves always. -/
theorem symbolic_text_denotes_folded_value :
    (∀ op x y, (fold? op x y).isSome = true ↔ op ∈ [.add, .sub, .and, .xor, .or, .sll, .sra]) ∧
    (∀ (k : Knowledge) op d a b, k.get? a = none ∨ k.get? b = none →
      ∃ text,
        (∀ symbols, (explain k (.alu op d a b)).1.text symbols = d.role ++ " = " ++ text) ∧
        ∀ x y value, fold? op x y = some value →
          (∀ known : Knowledge, known.get? a = some x → known.get? b = some y →
            (explain known (.alu op d a b)).2 = known.set d value) ∧
          ∀ file : RegisterFile, file.read a = x.toBitVec → file.read b = y.toBitVec →
            evaluate? file text.toList = some value.toBitVec) ∧
    (∀ (k : Knowledge) op d a i, k.get? a = none →
      ∃ text,
        (∀ symbols,
          (explain k (.aluImmediate op d a i)).1.text symbols = d.role ++ " = " ++ text) ∧
        (∀ x value, fold? (aluOf op) x i = some value →
          ∀ known : Knowledge, known.get? a = some x →
            (explain known (.aluImmediate op d a i)).2 = known.set d value) ∧
        ((∀ x value, fold? (aluOf op) x i = some value →
          ∀ file : RegisterFile, file.read a = x.toBitVec →
            evaluate? file text.toList = some value.toBitVec) ↔ InRange op i)) ∧
    ∀ (k : Knowledge) d high, d ≠ .zero →
      ∃ text value,
        (∀ symbols, (explain k (.movhi d high)).1.text symbols = d.role ++ " = " ++ text) ∧
        (explain k (.movhi d high)).2.get? d = some value ∧
        ∀ file, evaluate? file text.toList = some value.toBitVec := by
  refine ⟨isSome_fold?_iff, ?_, ?_, ?_⟩
  · intro k op d a b unknown
    refine ⟨(symbolic op a b).text, ?_, ?_⟩
    · intro symbols
      rw [explain, folded?_of_unknown unknown]
      rfl
    · intro x y value folded
      refine ⟨?_, fun file => evaluate?_symbolic folded⟩
      intro known left right
      have result : folded? known op a b = some value := by simp [folded?, left, right, folded]
      rw [explain, result]
      rfl
  · intro k op d a i unknown
    -- `r0` is always known.
    have nonzero : a ≠ .zero := by
      rintro rfl
      simp at unknown
    refine ⟨(symbolicImmediate op a i).text, ?_, ?_,
      forall_evaluate?_symbolicImmediate_iff op i nonzero⟩
    · intro symbols
      have result : foldedImmediate? k op a i = none := by simp [foldedImmediate?, unknown]
      rw [explain, result]
      rfl
    · intro x value folded known held
      have result : foldedImmediate? known op a i = some value := by
        simp [foldedImmediate?, held, folded]
      rw [explain, result]
      rfl
  · intro k d high nonzero
    exact ⟨highText high, high <<< 16, fun symbols => rfl,
      Knowledge.get?_update_self nonzero k _, fun file => evaluate?_highText file high⟩

/-- The smallest signed half word is in range. The number behind the largest one is not: it is shown
as the same word. -/
theorem symbolic_text_denotes_folded_value_sign :
    Knowledge.unknown.get? ⟨4⟩ = none ∧
      (∃ text,
        (∀ symbols, (explain .unknown (.aluImmediate .xori ⟨3⟩ ⟨4⟩ (-0x8000))).1.text symbols =
          "A1 = " ++ text) ∧
        evaluate? (RegisterFile.cleared.write ⟨4⟩ 5) text.toList = some 0xffff8005) ∧
      ∃ text,
        (∀ symbols, (explain .unknown (.aluImmediate .xori ⟨3⟩ ⟨4⟩ 0x8000)).1.text symbols =
          "A1 = " ++ text) ∧
        ¬∀ x value, fold? .xor x 0x8000 = some value →
          ∀ file : RegisterFile, file.read ⟨4⟩ = x.toBitVec →
            evaluate? file text.toList = some value.toBitVec := by
  have unknown : Knowledge.unknown.get? ⟨4⟩ = none := by decide
  obtain ⟨-, -, immediate, -⟩ := symbolic_text_denotes_folded_value
  obtain ⟨inside, shown, -, agrees⟩ := immediate .unknown .xori ⟨3⟩ ⟨4⟩ (-0x8000) unknown
  obtain ⟨outside, cut, -, differs⟩ := immediate .unknown .xori ⟨3⟩ ⟨4⟩ 0x8000 unknown
  refine ⟨unknown, ⟨inside, shown, ?_⟩, outside, cut, ?_⟩
  · exact agrees.mpr ⟨by decide, by decide⟩ 5 (5 ^^^ -0x8000) rfl _ rfl
  · exact fun agree => absurd (differs.mp agree).2 (by decide)

end Disassembly.Pseudocode
