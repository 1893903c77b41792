import Disassembly.Proofs.Precision
import Mathlib.Data.Fintype.Card

/-!
# Knowledge and its history

Knowledge changes in three ways: a value is recorded, a register is forgotten, or all of them are.
For a register other than `r0` the last change that concerns it decides what is known (`get?_after`).
The slot of `r0` cannot be seen from outside, but equality compares it. No change ever writes to it
(`ZeroSlotEmpty.change`), so after any history two states are equal as soon as they cannot be told
apart.
-/

namespace Disassembly.Isa

theorem Register.index_eq_zero_iff {r : Register} : r.index = 0 ↔ r = .zero := by
  constructor
  · exact congrArg Register.mk
  · exact congrArg Register.index

end Disassembly.Isa

namespace Disassembly.Pseudocode.Knowledge

open Isa

/-- A change of what is known. -/
inductive Change where
  | set (r : Register) (value : Int32)
  | forget (r : Register)
  | reset
  deriving DecidableEq, Repr

/-- The knowledge that a change leaves. -/
def change (k : Knowledge) : Change → Knowledge
  | .set r value => k.set r value
  | .forget r => k.forget r
  | .reset => unknown

/-- What is known after changes, the first of them made when nothing was known. -/
def after (history : List Change) : Knowledge :=
  history.foldl change unknown

theorem after_concat (history : List Change) (c : Change) :
    after (history ++ [c]) = (after history).change c := by
  simp [after]

/-! ### The last change counts -/

/-- What a change says about a register that it concerns: the value, or that none is known. -/
def Change.says? (r : Register) : Change → Option (Option Int32)
  | .set d value => if d = r then some (some value) else none
  | .forget d => if d = r then some none else none
  | .reset => some none

/-- What the last change that concerns a register says about it. -/
def lastSaid (history : List Change) (r : Register) : Option Int32 :=
  (history.filterMap (Change.says? r)).getLast?.join

theorem lastSaid_concat (history : List Change) (c : Change) (r : Register) :
    lastSaid (history ++ [c]) r = (c.says? r).getD (lastSaid history r) := by
  unfold lastSaid
  rw [List.filterMap_append]
  cases said : c.says? r <;> simp [said]

theorem get?_change {r : Register} (nonzero : r ≠ .zero) (k : Knowledge) (c : Change) :
    (k.change c).get? r = (c.says? r).getD (k.get? r) := by
  have updated (d : Register) (value : Option Int32) :
      (k.update d value).get? r = if d = r then value else k.get? r := by
    split
    · next same =>
      subst same
      exact get?_update_self nonzero k value
    · next other => exact get?_update_of_ne (Ne.symm other) k value
  cases c with
  | set d value =>
    rw [change, set, updated, Change.says?]
    split <;> rfl
  | forget d =>
    rw [change, forget, updated, Change.says?]
    split <;> rfl
  | reset => exact get?_unknown nonzero

/-- The last change that concerns a register decides what is known about it. -/
theorem get?_after {r : Register} (nonzero : r ≠ .zero) (history : List Change) :
    (after history).get? r = lastSaid history r := by
  -- A history grows at its end, where `lastSaid` looks first.
  induction history using List.reverseRecOn with
  | nil => exact get?_unknown nonzero
  | append_singleton history c ih =>
    rw [after_concat, get?_change nonzero, lastSaid_concat, ih]

/-! ### The slot of `r0` -/

/-- Nothing is recorded in the slot of `r0`. -/
def ZeroSlotEmpty (k : Knowledge) : Prop :=
  k.slots[0] = none

theorem zeroSlotEmpty_unknown : unknown.ZeroSlotEmpty := by
  simp [ZeroSlotEmpty, unknown]

theorem ZeroSlotEmpty.update {k : Knowledge} (empty : k.ZeroSlotEmpty) (d : Register)
    (value : Option Int32) : (k.update d value).ZeroSlotEmpty := by
  unfold Knowledge.update
  split
  · exact empty
  · next nonzero =>
    have apart : d.index.val ≠ 0 := by
      intro first
      exact nonzero (decide_eq_true (Register.index_eq_zero_iff.mp (Fin.ext first)))
    exact (Vector.getElem_set_ne d.index.isLt (by decide) apart).trans empty

theorem ZeroSlotEmpty.change {k : Knowledge} (empty : k.ZeroSlotEmpty) (c : Change) :
    (k.change c).ZeroSlotEmpty := by
  cases c with
  | set r value => exact empty.update r (some value)
  | forget r => exact empty.update r none
  | reset => exact zeroSlotEmpty_unknown

theorem zeroSlotEmpty_after (history : List Change) : (after history).ZeroSlotEmpty := by
  induction history using List.reverseRecOn with
  | nil => exact zeroSlotEmpty_unknown
  | append_singleton history c ih =>
    rw [after_concat]
    exact ih.change c

/-- Without the slot of `r0` there is nothing in a state that cannot be read. -/
theorem eq_iff_get?_eq {k j : Knowledge} (empty : k.ZeroSlotEmpty) (emptyToo : j.ZeroSlotEmpty) :
    k = j ↔ ∀ r, k.get? r = j.get? r := by
  constructor
  · rintro rfl r
    rfl
  · intro alike
    have slots : k.slots = j.slots := by
      apply Vector.ext
      intro n bound
      by_cases first : n = 0
      · -- No read shows this slot, so the invariant has to speak for it.
        subst first
        exact empty.trans emptyToo.symm
      · have nonzero : (⟨n, bound⟩ : Register) ≠ .zero := fun zero =>
          first (congrArg Fin.val (Register.index_eq_zero_iff.mpr zero))
        have read := alike ⟨n, bound⟩
        simpa [get?, Register.isZero, nonzero] using read
    cases k
    cases j
    exact congrArg Knowledge.mk slots

/-! ### How much is known -/

theorem knownCount_eq_card (k : Knowledge) :
    k.knownCount =
      (Finset.univ.filter fun n : Fin 32 => n ≠ 0 ∧ k.isKnown ⟨n⟩ = true).card := by
  have listed : k.knownCount =
      ((List.finRange 32).filter fun n => n ≠ 0 ∧ k.isKnown ⟨n⟩ = true).length := by
    rw [knownCount, known, Register.all, List.filterMap_map, List.length_filterMap_eq_countP,
      List.countP_eq_length_filter]
    congr 2
    funext n
    have zero : (⟨n⟩ : Register) = .zero ↔ n = 0 := Register.index_eq_zero_iff.symm
    simp only [Function.comp_apply, Register.isZero, zero, isKnown]
    by_cases first : n = 0 <;> simp [first]
  rw [listed, ← List.toFinset_card_of_nodup ((List.nodup_finRange 32).filter _),
    List.toFinset_filter, List.toFinset_finRange]
  simp

theorem knownCount_eq_zero_iff {k : Knowledge} (empty : k.ZeroSlotEmpty) :
    k.knownCount = 0 ↔ k = unknown := by
  rw [eq_iff_get?_eq empty zeroSlotEmpty_unknown, knownCount_eq_card, Finset.card_eq_zero,
    Finset.filter_eq_empty_iff]
  constructor
  · intro unread r
    by_cases zero : r = .zero
    · rw [zero, get?_zero, get?_zero]
    · have here := unread (Finset.mem_univ r.index)
      rw [get?_unknown zero]
      simpa [Register.index_eq_zero_iff, zero, isKnown] using here
  · rintro alike n - ⟨apart, known⟩
    have nonzero : (⟨n⟩ : Register) ≠ .zero := mt Register.index_eq_zero_iff.mpr apart
    rw [isKnown, alike, get?_unknown nonzero] at known
    cases known

/-- Equality of states that histories of changes lead to is observational. A read gives zero for
`r0`, and for any other register what the last change that concerns it says. Two states are equal
exactly if all reads agree, and the count of known registers, which is zero in the initial state
alone, is the number of those from `r1` to `r31` that are known. -/
theorem equality_is_observational (first second : List Change) :
    (∀ r, (after first).get? r = if r = .zero then some 0 else lastSaid first r) ∧
    (after first = after second ↔ ∀ r, (after first).get? r = (after second).get? r) ∧
    (after first).knownCount =
      (Finset.univ.filter fun n : Fin 32 => n ≠ 0 ∧ (after first).isKnown ⟨n⟩ = true).card ∧
    ((after first).knownCount = 0 ↔ after first = unknown) := by
  have empty := zeroSlotEmpty_after first
  refine ⟨?_, eq_iff_get?_eq empty (zeroSlotEmpty_after second), knownCount_eq_card _,
    knownCount_eq_zero_iff empty⟩
  intro r
  split
  · next zero => rw [zero, get?_zero]
  · next nonzero => exact get?_after nonzero first

end Disassembly.Pseudocode.Knowledge
