import Disassembly.Proofs.Calls
import Mathlib.Order.Basic

/-!
# Knowing more before means knowing more after

Knowledge is ordered: one state is below another if every value that is known in the first is known
in the second too. Explaining an operation records one result, about its destination (`snd_explain`).
The result depends on the values of the sources alone, and having more of them never takes one away.
So explaining respects the order, run after run, and a block that starts with nothing known comes to
no value that another start would contradict.
-/

namespace Disassembly.Pseudocode

open Isa

namespace Knowledge

/-- Every value that is known in `s` is known in `t`. -/
instance : Preorder Knowledge where
  le s t := ∀ r value, s.get? r = some value → t.get? r = some value
  le_refl _ _ _ known := known
  le_trans _ _ _ first second r value known := second r value (first r value known)

theorem get?_unknown {r : Register} (nonzero : r ≠ .zero) : unknown.get? r = none := by
  simp [get?, unknown, Register.isZero, nonzero]

theorem unknown_le (k : Knowledge) : unknown ≤ k := by
  intro r value known
  by_cases zero : r = .zero
  · subst zero
    simpa using known
  · rw [get?_unknown zero] at known
    cases known

/-- Recording no less about a register keeps the order. -/
theorem update_le_update {s t : Knowledge} (below : s ≤ t) (d : Register) {x y : Option Int32}
    (result : ∀ value, x = some value → y = some value) : s.update d x ≤ t.update d y := by
  intro r value known
  by_cases same : r = d
  · subst same
    by_cases zero : r = .zero
    · subst zero
      simpa using known
    · rw [get?_update_self zero] at known ⊢
      exact result value known
  · rw [get?_update_of_ne same] at known ⊢
    exact below r value known

theorem update_zero (k : Knowledge) (value : Option Int32) : k.update .zero value = k := by
  simp [update, Register.isZero]

/-- What is read back of a value that has just been recorded does not depend on the rest. -/
theorem value_set (k : Knowledge) (d : Register) (value : Int32) :
    (k.set d value).value d = if d = .zero then 0 else value := by
  by_cases zero : d = .zero
  · simp [Knowledge.value, zero]
  · simp [Knowledge.value, Knowledge.set, get?_update_self zero, zero]

end Knowledge

/-! ### One operation -/

/-- The value that is known of the destination after an operation. -/
def result? (k : Knowledge) : Operation → Option Int32
  | .alu op _ a b => folded? k op a b
  | .aluImmediate op _ a i => foldedImmediate? k op a i
  | .movhi _ high => some (high <<< 16)
  | _ => none

theorem snd_assign (k : Knowledge) (d : Register) (result : Option Int32) (source : Expression) :
    (assign k d result source).2 = k.update d result := by
  cases result <;> rfl

/-- Explaining an operation records its result and does nothing else. -/
theorem snd_explain (k : Knowledge) (operation : Operation) :
    (explain k operation).2 =
      match operation.destination? with
      | some d => k.update d (result? k operation)
      | none => k := by
  cases operation with
  | alu op d a b => exact snd_assign k d _ _
  | aluImmediate op d a i => exact snd_assign k d _ _
  | movhi | load | mfspr => rfl
  | branch | registerBranch | store | mtspr | compare | compareImmediate | bare => rfl

section Order

variable {s t : Knowledge} (below : s ≤ t)

include below

theorem folded?_mono {op : Alu} {a b : Register} {value : Int32}
    (folded : folded? s op a b = some value) : folded? t op a b = some value := by
  simp only [folded?, Option.bind_eq_bind, Option.bind_eq_some_iff] at folded ⊢
  obtain ⟨x, left, y, right, folded⟩ := folded
  exact ⟨x, below a x left, y, below b y right, folded⟩

theorem foldedImmediate?_mono {op : AluImmediate} {a : Register} {i value : Int32}
    (folded : foldedImmediate? s op a i = some value) :
    foldedImmediate? t op a i = some value := by
  simp only [foldedImmediate?, Option.bind_eq_bind, Option.bind_eq_some_iff] at folded ⊢
  obtain ⟨x, left, folded⟩ := folded
  exact ⟨x, below a x left, folded⟩

theorem result?_mono {operation : Operation} {value : Int32}
    (found : result? s operation = some value) : result? t operation = some value := by
  cases operation with
  | alu op d a b => exact folded?_mono below found
  | aluImmediate op d a i => exact foldedImmediate?_mono below found
  | movhi d high => exact found
  | _ => cases found

theorem explain_le_explain (operation : Operation) :
    (explain s operation).2 ≤ (explain t operation).2 := by
  rw [snd_explain, snd_explain]
  cases operation.destination? with
  | none => exact below
  | some d => exact Knowledge.update_le_update below d fun value => result?_mono below

/-- A value that is shown with less knowledge is shown with more. -/
theorem constant_mono {operation : Operation} {d : Register} {value : Int32}
    (shown : (explain s operation).1 = .constant d value) :
    (explain t operation).1 = .constant d value := by
  -- The statement shows what is read back of the result, which is the same on both sides.
  have assigned {e : Register} {left right : Option Int32} {source : Expression}
      (result : ∀ value, left = some value → right = some value)
      (shown : (assign s e left source).1 = .constant d value) :
      (assign t e right source).1 = .constant d value := by
    cases left with
    | none => cases shown
    | some found =>
      rw [result found rfl]
      simp only [assign, Knowledge.value_set] at shown ⊢
      exact shown
  cases operation with
  | alu op e a b => exact assigned (fun value => folded?_mono below) shown
  | aluImmediate op e a i => exact assigned (fun value => foldedImmediate?_mono below) shown
  | _ => cases shown

/-- Explaining respects the order along straight-line code. -/
theorem knownAfter_le_knownAfter (operations : List Operation) :
    knownAfter s operations ≤ knownAfter t operations := by
  induction operations generalizing s t with
  | nil => exact below
  | cons operation rest ih => exact ih (explain_le_explain below operation)

end Order

/-- What is known about `r0` never changes, and what is known about another register only if it is
the destination. -/
theorem destination?_of_changed {k : Knowledge} {operation : Operation} {r : Register}
    (changed : (explain k operation).2.get? r ≠ k.get? r) :
    operation.destination? = some r ∧ r ≠ .zero := by
  constructor
  · by_contra other
    exact changed (get?_explain_of_not_destination other k)
  · rintro rfl
    simp at changed

theorem snd_explain_of_no_destination {operation : Operation}
    (silent : operation.destination? = none ∨ operation.destination? = some .zero)
    (k : Knowledge) : (explain k operation).2 = k := by
  rw [snd_explain]
  rcases silent with none | zero
  · rw [none]
  · rw [zero]
    exact k.update_zero _

end Disassembly.Pseudocode

namespace Disassembly.Output.Renderer

open Pseudocode Listing

/-- Block starts and jumps forget everything on both sides, so rendering respects the order as
well. -/
theorem next_le_next (r : Renderer) {s t : Knowledge} (below : s ≤ t) (i : Instruction) :
    r.next s i ≤ r.next t i := by
  have entered : r.entry s i ≤ r.entry t i := by
    unfold entry
    split
    · exact le_refl _
    · exact below
  unfold next leave
  split
  · exact le_refl _
  · exact explain_le_explain entered i.operation

theorem knowledgeAfter_le_knowledgeAfter (r : Renderer) {s t : Knowledge} (below : s ≤ t)
    (instructions : List Instruction) :
    r.knowledgeAfter s instructions ≤ r.knowledgeAfter t instructions := by
  induction instructions generalizing s t with
  | nil => exact below
  | cons i rest ih => exact ih (r.next_le_next below i)

end Disassembly.Output.Renderer

namespace Disassembly.Pseudocode

open Isa Output

/-- Explaining is monotone and local. Knowing more before an operation, or before any sequence of
them, means knowing more behind it and showing the same values. An operation changes what is known
about its destination alone, and nothing if it has none or `r0`. So a block that starts with nothing
known agrees with every other start. -/
theorem explain_monotone_and_local :
    (∀ operation (s t : Knowledge), s ≤ t →
      (explain s operation).2 ≤ (explain t operation).2 ∧
      ∀ d value, (explain s operation).1 = .constant d value →
        (explain t operation).1 = .constant d value) ∧
    (∀ operations (s t : Knowledge), s ≤ t →
      knownAfter s operations ≤ knownAfter t operations) ∧
    (∀ k operation r, (explain k operation).2.get? r ≠ k.get? r →
      operation.destination? = some r ∧ r ≠ .zero) ∧
    (∀ k operation, operation.destination? = none ∨ operation.destination? = some .zero →
      (explain k operation).2 = k) ∧
    (∀ operations k r x y, (knownAfter .unknown operations).get? r = some x →
      (knownAfter k operations).get? r = some y → x = y) ∧
    ∀ (renderer : Renderer) block k r x y,
      (renderer.knowledgeAfter .unknown block).get? r = some x →
      (renderer.knowledgeAfter k block).get? r = some y → x = y := by
  -- Two states in the order know no different values of a register.
  have agree {s t : Knowledge} (below : s ≤ t) (r : Register) (x y : Int32)
      (left : s.get? r = some x) (right : t.get? r = some y) : x = y := by
    rw [below r x left, Option.some.injEq] at right
    exact right
  refine ⟨?_, ?_, ?_, ?_, ?_, ?_⟩
  · intro operation s t below
    exact ⟨explain_le_explain below operation, fun d value => constant_mono below⟩
  · exact fun operations s t below => knownAfter_le_knownAfter below operations
  · exact fun k operation r => destination?_of_changed
  · exact fun k operation silent => snd_explain_of_no_destination silent k
  · exact fun operations k =>
      agree (knownAfter_le_knownAfter (Knowledge.unknown_le k) operations)
  · exact fun renderer block k =>
      agree (renderer.knowledgeAfter_le_knowledgeAfter (Knowledge.unknown_le k) block)

/-- The sum is known with one start only, and the load forgets the register that it was made of. -/
theorem explain_monotone_and_local_summing :
    Knowledge.unknown ≤ Knowledge.unknown.set ⟨3⟩ 5 ∧
      knownAfter .unknown [.aluImmediate .addi ⟨4⟩ ⟨3⟩ 1, .load .lwz ⟨3⟩ ⟨4⟩ 0] ≤
        knownAfter (Knowledge.unknown.set ⟨3⟩ 5)
          [.aluImmediate .addi ⟨4⟩ ⟨3⟩ 1, .load .lwz ⟨3⟩ ⟨4⟩ 0] ∧
      (knownAfter (Knowledge.unknown.set ⟨3⟩ 5)
        [.aluImmediate .addi ⟨4⟩ ⟨3⟩ 1, .load .lwz ⟨3⟩ ⟨4⟩ 0]).known = [(⟨4⟩, 6)] := by
  have below := Knowledge.unknown_le (Knowledge.unknown.set ⟨3⟩ 5)
  exact ⟨below, explain_monotone_and_local.2.1 _ _ _ below, by decide⟩

end Disassembly.Pseudocode
