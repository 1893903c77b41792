import Disassembly.Text.Blank
import Disassembly.Text.Digit
import Mathlib.Data.List.Induction
import Mathlib.Tactic.Common

/-!
# Numerals

A numeral grows at its right end, where the writer adds a digit and the reader multiplies by the base;
zeros at its left end do not change its value. The readers accept all numerals and nothing else
(`readNumber?_eq_some_iff`), and what `padded` writes is a numeral.
-/

namespace Disassembly.Text

theorem ofDigits_append_singleton (base : Nat) (digits : List Nat) (digit : Nat) :
    ofDigits base (digits ++ [digit]) = base * ofDigits base digits + digit := by
  rw [ofDigits, List.foldl_append]
  rfl

/-! ### Digits as characters -/

theorem toNat_of_isHexDigit {c : Char} (digit : isHexDigit c = true) :
    48 ≤ c.toNat ∧ c.toNat ≤ 57 ∨ 65 ≤ c.toNat ∧ c.toNat ≤ 70 ∨ 97 ≤ c.toNat ∧ c.toNat ≤ 102 := by
  have bounds (low high : Char) (between : low ≤ c ∧ c ≤ high) :
      low.toNat ≤ c.toNat ∧ c.toNat ≤ high.toNat :=
    ⟨UInt32.le_iff_toNat_le.mp between.1, UInt32.le_iff_toNat_le.mp between.2⟩
  unfold isHexDigit hexDigit? at digit
  split at digit
  · next decimal => exact .inl (bounds '0' '9' decimal)
  · split at digit
    · next lower => exact .inr (.inr (bounds 'a' 'f' lower))
    · split at digit
      · next upper => exact .inr (.inl (bounds 'A' 'F' upper))
      · cases digit

theorem isBlank_of_isHexDigit {c : Char} (digit : isHexDigit c = true) : isBlank c = false := by
  have range := toNat_of_isHexDigit digit
  simp only [isBlank, Bool.or_eq_false_iff, Bool.and_eq_false_iff, decide_eq_false_iff_not,
    beq_eq_false_iff_ne]
  omega

/-! ### The grammar of numerals -/

/-- A digit of a base up to sixteen, in either case, and its value. -/
def IsDigit (base : Nat) (c : Char) (value : Nat) : Prop :=
  value < base ∧ (c = Nat.digitChar value ∨ c = (Nat.digitChar value).toUpper)

/-- One or more digits and the number they denote. -/
inductive Numeral (base : Nat) : List Char → Nat → Prop where
  | digit {c : Char} {value : Nat} (here : IsDigit base c value) : Numeral base [c] value
  | snoc {text : List Char} {number : Nat} {c : Char} {value : Nat}
      (before : Numeral base text number) (here : IsDigit base c value) :
      Numeral base (text ++ [c]) (base * number + value)

theorem decimalDigit?_eq_some_iff {c : Char} {value : Nat} :
    decimalDigit? c = some value ↔ IsDigit 10 c value := by
  constructor
  · intro found
    unfold decimalDigit? at found
    split at found
    · next between =>
      cases found
      have low : 48 ≤ c.toNat := UInt32.le_iff_toNat_le.mp between.1
      have high : c.toNat ≤ 57 := UInt32.le_iff_toNat_le.mp between.2
      have table : ∀ n ≤ 57, 48 ≤ n → IsDigit 10 (Char.ofNat n) (n - 48) := by
        unfold IsDigit
        decide
      have digit := table c.toNat high low
      rwa [Char.ofNat_toNat] at digit
    · cases found
  · rintro ⟨small, rfl | rfl⟩
    · revert value
      decide
    · revert value
      decide

theorem hexDigit?_eq_some_iff {c : Char} {value : Nat} :
    hexDigit? c = some value ↔ IsDigit 16 c value := by
  constructor
  · intro found
    have digit : isHexDigit c = true := by
      rw [isHexDigit, found]
      rfl
    have range := toNat_of_isHexDigit digit
    have table : ∀ n < 103, ∀ value ∈ hexDigit? (Char.ofNat n), IsDigit 16 (Char.ofNat n) value := by
      unfold IsDigit
      decide
    have entry := table c.toNat (by omega)
    rw [Char.ofNat_toNat] at entry
    exact entry value found
  · rintro ⟨small, rfl | rfl⟩
    · revert value
      decide
    · revert value
      decide

theorem isHexDigit_iff {c : Char} : isHexDigit c = true ↔ ∃ value, IsDigit 16 c value := by
  simp only [isHexDigit, Option.isSome_iff_exists, hexDigit?_eq_some_iff]

/-- A text of digits is read as the number it denotes. -/
theorem readNumber?_eq_some_iff {base : Nat} {digit? : Char → Option Nat}
    (digits : ∀ c value, digit? c = some value ↔ IsDigit base c value) {text : List Char}
    {number : Nat} : readNumber? base digit? text = some number ↔ Numeral base text number := by
  have concat (text : List Char) (c : Char) :
      (text ++ [c]).mapM digit? =
        (text.mapM digit?).bind fun found => (digit? c).map fun value => found ++ [value] := by
    rw [List.mapM_append, List.mapM_cons]
    cases text.mapM digit? <;> cases digit? c <;> rfl
  constructor
  · intro found
    -- Numerals grow at their right end, so the induction takes the last digit off.
    induction text using List.reverseRecOn generalizing number with
    | nil => cases found
    | append_singleton text c ih =>
      rw [readNumber?, if_neg (by simp), concat] at found
      obtain ⟨_, read, rfl⟩ := Option.map_eq_some_iff.mp found
      obtain ⟨values, before, read⟩ := Option.bind_eq_some_iff.mp read
      obtain ⟨value, here, rfl⟩ := Option.map_eq_some_iff.mp read
      have last := (digits c value).mp here
      rw [ofDigits_append_singleton]
      by_cases first : text = []
      · subst first
        cases before
        simpa [ofDigits] using Numeral.digit last
      · refine .snoc (ih ?_) last
        rw [readNumber?, if_neg (by simp [first]), before, Option.map_some]
  · intro numeral
    induction numeral with
    | @digit c value here =>
      rw [readNumber?, if_neg (by simp), ← List.nil_append [c], concat, (digits c value).mpr here]
      simp [ofDigits]
    | @snoc text number c value before here ih =>
      rw [readNumber?] at ih ⊢
      split at ih
      · cases ih
      · obtain ⟨values, read, rfl⟩ := Option.map_eq_some_iff.mp ih
        rw [if_neg (by simp), concat, read, (digits c value).mpr here]
        simp [ofDigits_append_singleton]

theorem readDecimal?_eq_some_iff {text : List Char} {number : Nat} :
    readDecimal? text = some number ↔ Numeral 10 text number :=
  readNumber?_eq_some_iff fun _ _ => decimalDigit?_eq_some_iff

theorem readHexWord?_eq_some_iff {text : List Char} {word : UInt32} :
    readHexWord? text = some word ↔ Numeral 16 text word.toNat := by
  have reads (number : Nat) : readHex? text = some number ↔ Numeral 16 text number :=
    readNumber?_eq_some_iff fun _ _ => hexDigit?_eq_some_iff
  rw [← reads, readHexWord?]
  cases readHex? text with
  | none => simp
  | some number =>
    dsimp only
    split
    · next fits =>
      rw [Option.some.injEq, Option.some.injEq, ← UInt32.toNat_inj, UInt32.toNat_ofNat_of_lt' fits]
    · next large =>
      have bound := word.toNat_lt_size
      constructor
      · intro found
        cases found
      · rintro ⟨⟩
        exact absurd bound large

namespace Numeral

variable {base number : Nat} {text : List Char}

theorem ne_nil (numeral : Numeral base text number) : text ≠ [] := by
  cases numeral <;> simp

theorem isDigit_of_mem (numeral : Numeral base text number) {c : Char} (member : c ∈ text) :
    ∃ value, IsDigit base c value := by
  induction numeral with
  | digit here =>
    cases List.mem_singleton.mp member
    exact ⟨_, here⟩
  | snoc before here ih =>
    rcases List.mem_append.mp member with earlier | last
    · exact ih earlier
    · cases List.mem_singleton.mp last
      exact ⟨_, here⟩

/-- Zeros at the left end do not count. -/
theorem zero_cons (positive : 0 < base) (numeral : Numeral base text number) :
    Numeral base ('0' :: text) number := by
  have zero : IsDigit base '0' 0 := ⟨positive, .inl rfl⟩
  induction numeral with
  | digit here => simpa using Numeral.snoc (.digit zero) here
  | snoc before here ih => exact .snoc ih here

end Numeral

theorem isSome_decimalDigit?_of_mem {digits : List Char} {n : Nat} (number : Numeral 10 digits n)
    {c : Char} (member : c ∈ digits) : (decimalDigit? c).isSome = true := by
  obtain ⟨value, digit⟩ := number.isDigit_of_mem member
  rw [decimalDigit?_eq_some_iff.mpr digit]
  rfl

/-! ### Reading what was written -/

theorem numeral_toDigits {base : Nat} (many : 1 < base) (n : Nat) :
    Numeral base (Nat.toDigits base n) n := by
  induction n using Nat.strongRecOn with
  | ind n ih =>
    by_cases small : n < base
    · rw [Nat.toDigits_of_lt_base small]
      exact .digit ⟨small, .inl rfl⟩
    · -- The last digit is the remainder, and the digits before it are those of the quotient.
      have last : IsDigit base (Nat.digitChar (n % base)) (n % base) :=
        ⟨Nat.mod_lt n (by omega), .inl rfl⟩
      have grown := Numeral.snoc (ih (n / base) (Nat.div_lt_self (by omega) many)) last
      rwa [Nat.div_add_mod, ← Nat.toDigits_of_base_le many (by omega)] at grown

theorem numeral_padded {base : Nat} (many : 1 < base) (width n : Nat) :
    Numeral base (padded base width n) n := by
  rw [padded, List.leftpad]
  induction width - (Nat.toDigits base n).length with
  | zero => exact numeral_toDigits many n
  | succ count ih =>
    rw [List.replicate_succ]
    exact ih.zero_cons (by omega)

theorem isHexDigit_of_mem_padded {width n : Nat} {c : Char} (member : c ∈ padded 16 width n) :
    isHexDigit c = true :=
  isHexDigit_iff.mpr ((numeral_padded (by decide) width n).isDigit_of_mem member)

end Disassembly.Text
