import Disassembly.Proofs.Execution
import Disassembly.Proofs.Placement

/-!
# The link register across calls

A call overwrites the link register with a return address. Explaining a call records nothing, so a
value of the link register that is known in front of a call stays known behind it, where it is not
there any more. `advance` adds calls to the machine of straight-line code. Whether rendering is
sound across the calls of a program then depends on one thing: at no call may the link register be
known. That is necessary and sufficient for the registers to agree with what is known at every
point, and also for every known value of the link register to come from behind the last call.
-/

namespace Disassembly.Isa

namespace Operation

/-- The register that an operation computes or loads. -/
def destination? : Operation → Option Register
  | .alu _ d _ _ | .aluImmediate _ d _ _ | .movhi d _ | .load _ d _ _ | .mfspr d _ _ => some d
  | _ => none

def isCall : Operation → Bool
  | .branch .jal _ | .registerBranch .jalr _ => true
  | _ => false

end Operation

/-- The registers after an operation that is read in program order. A call leaves the word it is
supplied in the link register; no other control transfer writes a register. -/
def advance (file : RegisterFile) (supplied : BitVec 32) (operation : Operation) : RegisterFile :=
  if operation.isCall then file.write .link supplied
  else (execute? file supplied operation).getD file

/-- The registers after instructions in program order, each with the word it is supplied. -/
def registersAfter (file : RegisterFile) (steps : List (Listing.Instruction × BitVec 32)) :
    RegisterFile :=
  steps.foldl (fun file step => advance file step.2 step.1.operation) file

theorem advance_of_isCall {operation : Operation} (calls : operation.isCall = true)
    (file : RegisterFile) (supplied : BitVec 32) :
    advance file supplied operation = file.write .link supplied := by
  rw [advance, if_pos calls]

theorem registersAfter_concat (file : RegisterFile)
    (steps : List (Listing.Instruction × BitVec 32)) (i : Listing.Instruction)
    (supplied : BitVec 32) :
    registersAfter file (steps ++ [(i, supplied)]) =
      advance (registersAfter file steps) supplied i.operation :=
  List.foldl_concat ..

end Disassembly.Isa

namespace Disassembly.Pseudocode

open Isa

/-! ### What an operation leaves alone -/

theorem get?_assign_of_ne {r d : Register} (other : r ≠ d) (k : Knowledge) (result : Option Int32)
    (source : Expression) : (assign k d result source).2.get? r = k.get? r := by
  cases result with
  | none => exact Knowledge.get?_update_of_ne other k none
  | some value => exact Knowledge.get?_update_of_ne other k (some value)

/-- Explaining an operation changes what is known about its destination and nothing else. -/
theorem get?_explain_of_not_destination {operation : Operation} {r : Register}
    (other : operation.destination? ≠ some r) (k : Knowledge) :
    (explain k operation).2.get? r = k.get? r := by
  have apart {d : Register} (writes : operation.destination? = some d) : r ≠ d := by
    rintro rfl
    exact other writes
  cases operation with
  | alu op d a b => exact get?_assign_of_ne (apart rfl) k _ _
  | aluImmediate op d a i => exact get?_assign_of_ne (apart rfl) k _ _
  | movhi d high => exact Knowledge.get?_update_of_ne (apart rfl) k _
  | load op d a i => exact Knowledge.get?_update_of_ne (apart rfl) k _
  | mfspr d a selector => exact Knowledge.get?_update_of_ne (apart rfl) k _
  | branch | registerBranch | store | mtspr | compare | compareImmediate | bare => rfl

theorem get?_unknown_link : Knowledge.unknown.get? .link = none := by
  decide

/-- A write to a register of which nothing is known keeps agreement. -/
theorem Agrees.write_of_unknown {k : Knowledge} {file : RegisterFile} (agrees : Agrees k file)
    {d : Register} (unknown : k.get? d = none) (word : BitVec 32) :
    Agrees k (file.write d word) := by
  intro r value known
  have other : r ≠ d := by
    rintro rfl
    rw [unknown] at known
    cases known
  rw [RegisterFile.write_read_of_ne other]
  exact agrees r value known

theorem Agrees.advance {k : Knowledge} {file : RegisterFile} (agrees : Agrees k file)
    {operation : Operation} (unlinked : operation.isCall = true → k.get? .link = none)
    (supplied : BitVec 32) :
    Agrees (Pseudocode.explain k operation).2 (Isa.advance file supplied operation) := by
  by_cases calls : operation.isCall = true
  · -- A call is explained without a change, so the old knowledge has to fit the new registers.
    have same : (Pseudocode.explain k operation).2 = k := by
      cases operation with
      | branch | registerBranch => rfl
      | _ => cases calls
    rw [same, advance_of_isCall calls]
    exact agrees.write_of_unknown (unlinked calls) supplied
  · rw [Isa.advance, if_neg calls]
    cases straight : operation.mnemonic.isControl with
    | false =>
      obtain ⟨after, executed, sound⟩ := agrees.explain straight supplied
      rw [executed]
      exact sound.agrees
    | true =>
      -- The other transfers write no register and are explained without a change.
      cases operation with
      | branch | registerBranch => exact agrees
      | _ => cases straight

end Disassembly.Pseudocode

namespace Disassembly.Output.Renderer

open Isa Listing Pseudocode

/-- Behind `earlier`, an instruction of `later` assigned the value to the link register, and no
instruction behind it wrote the register. -/
def AssignsLink (r : Renderer) (earlier later : List Instruction) (value : Int32) : Prop :=
  ∃ before i after, later = before ++ i :: after ∧ i.operation.destination? = some .link ∧
    (r.knowledgeAfter .unknown (earlier ++ before ++ [i])).get? .link = some value ∧
    ∀ j ∈ after, j.operation.destination? ≠ some .link

/-- At every point of the program, a value that is known of the link register was assigned behind
every call in front of that point. -/
def LinksAreFresh (r : Renderer) : Prop :=
  ∀ front back value, r.program.instructions = front ++ back →
    (r.knowledgeAfter .unknown front).get? .link = some value →
    ∀ earlier call later, front = earlier ++ call :: later → call.operation.isCall = true →
      r.AssignsLink (earlier ++ [call]) later value

/-- At every point of the program, the registers of a machine that has come there agree with what is
known, whatever its loads found and whatever addresses its calls return to. -/
def AgreesThroughout (r : Renderer) : Prop :=
  ∀ file steps back, r.program.instructions = steps.map Prod.fst ++ back →
    Agrees (r.knowledgeAfter .unknown (steps.map Prod.fst)) (registersAfter file steps)

/-- No call of the program is reached while a value of the link register is known. -/
def LinkUnknownAtCalls (r : Renderer) : Prop :=
  ∀ front call back, r.program.instructions = front ++ call :: back →
    call.operation.isCall = true →
    (r.entry (r.knowledgeAfter .unknown front) call).get? .link = none

/-! ### Where knowledge of the link register comes from -/

theorem knowledgeAfter_concat (r : Renderer) (k : Knowledge) (front : List Instruction)
    (i : Instruction) : r.knowledgeAfter k (front ++ [i]) = r.next (r.knowledgeAfter k front) i :=
  List.foldl_concat ..

/-- An instruction that does not write the link register can only forget it. -/
theorem get?_entry_of_next (r : Renderer) {k : Knowledge} {i : Instruction} {value : Int32}
    (other : i.operation.destination? ≠ some .link)
    (known : (r.next k i).get? .link = some value) : (r.entry k i).get? .link = some value := by
  unfold next leave at known
  split at known
  · rw [get?_unknown_link] at known
    cases known
  · rw [get?_explain_of_not_destination other] at known
    exact known

theorem get?_of_entry (r : Renderer) {k : Knowledge} {i : Instruction} {value : Int32}
    (known : (r.entry k i).get? .link = some value) : k.get? .link = some value := by
  unfold entry at known
  split at known
  · rw [get?_unknown_link] at known
    cases known
  · exact known

/-- A call keeps what was known when it was reached. -/
theorem next_of_isCall (r : Renderer) {call : Instruction}
    (calls : call.operation.isCall = true) (k : Knowledge) : r.next k call = r.entry k call := by
  have stays : call.mnemonic ≠ .branch .j := by
    intro jump
    rw [Instruction.mnemonic] at jump
    cases operation : call.operation with
    | branch op target =>
      rw [operation] at calls jump
      cases jump
      cases calls
    | _ =>
      rw [operation] at jump
      cases jump
  rw [next, leave, if_neg stays]
  cases operation : call.operation with
  | branch | registerBranch => rfl
  | _ =>
    rw [operation] at calls
    cases calls

/-- A value that is known of the link register behind some instructions was assigned by the last of
them that writes the register, or was known in front of them. -/
theorem origin_of_link (r : Renderer) (k : Knowledge) (later : List Instruction) {value : Int32}
    (known : (r.knowledgeAfter k later).get? .link = some value) :
    (∃ before i after, later = before ++ i :: after ∧ i.operation.destination? = some .link ∧
      (r.knowledgeAfter k (before ++ [i])).get? .link = some value ∧
      ∀ j ∈ after, j.operation.destination? ≠ some .link) ∨
    k.get? .link = some value := by
  -- From the end, because it is the last write that counts.
  induction later using List.reverseRecOn with
  | nil => exact .inr known
  | append_singleton front i ih =>
    by_cases writes : i.operation.destination? = some .link
    · exact .inl ⟨front, i, [], rfl, writes, known, nofun⟩
    · rw [knowledgeAfter_concat] at known
      rcases ih (r.get?_of_entry (r.get?_entry_of_next writes known)) with
        ⟨before, j, after, rfl, assigns, assigned, quiet⟩ | earlier
      · refine .inl ⟨before, j, after ++ [i], by simp, assigns, assigned, ?_⟩
        intro other member
        rcases List.mem_append.mp member with among | last
        · exact quiet other among
        · cases List.mem_singleton.mp last
          exact writes
      · exact .inr earlier

/-! ### Fresh values -/

theorem LinkUnknownAtCalls.linksAreFresh {r : Renderer} (unknown : r.LinkUnknownAtCalls) :
    r.LinksAreFresh := by
  rintro front back value split known earlier call later rfl calls
  have passed : r.knowledgeAfter .unknown (earlier ++ call :: later) =
      r.knowledgeAfter (r.knowledgeAfter .unknown (earlier ++ [call])) later := by
    rw [← knowledgeAfter_append, List.append_assoc]
    rfl
  rw [passed] at known
  rcases r.origin_of_link _ later known with
    ⟨before, i, after, place, assigns, assigned, quiet⟩ | old
  · refine ⟨before, i, after, place, assigns, ?_, quiet⟩
    rw [List.append_assoc, knowledgeAfter_append]
    exact assigned
  · -- The call would have been reached with the value that is known behind it.
    rw [knowledgeAfter_concat, r.next_of_isCall calls,
      unknown earlier call (later ++ back) (by simpa using split) calls] at old
    cases old

theorem LinksAreFresh.linkUnknownAtCalls {r : Renderer} (fresh : r.LinksAreFresh) :
    r.LinkUnknownAtCalls := by
  intro front call back split calls
  cases known : (r.entry (r.knowledgeAfter .unknown front) call).get? .link with
  | none => rfl
  | some value =>
    -- Right behind the call nothing has been assigned since.
    rw [← r.next_of_isCall calls, ← knowledgeAfter_concat] at known
    obtain ⟨before, i, after, place, -⟩ :=
      fresh (front ++ [call]) back value (by simpa using split) known front call [] rfl calls
    cases before <;> cases place

/-! ### Agreement with the machine -/

/-- One instruction keeps agreement, unless it is a call that is reached with a known link. -/
theorem agrees_next (r : Renderer) {k : Knowledge} {file : RegisterFile} (agrees : Agrees k file)
    {i : Instruction} (unlinked : i.operation.isCall = true → (r.entry k i).get? .link = none)
    (supplied : BitVec 32) : Agrees (r.next k i) (advance file supplied i.operation) := by
  have entered : Agrees (r.entry k i) file := by
    unfold entry
    split
    · exact agrees_unknown file
    · exact agrees
  unfold next leave
  split
  · exact agrees_unknown _
  · exact entered.advance unlinked supplied

theorem LinkUnknownAtCalls.agreesThroughout {r : Renderer} (unknown : r.LinkUnknownAtCalls) :
    r.AgreesThroughout := by
  intro file steps
  induction steps using List.reverseRecOn with
  | nil =>
    intro back _
    exact agrees_unknown file
  | append_singleton front step ih =>
    obtain ⟨i, supplied⟩ := step
    intro back split
    rw [List.map_append, List.append_assoc] at split
    rw [List.map_append, List.map_singleton, knowledgeAfter_concat, registersAfter_concat]
    exact r.agrees_next (ih _ split) (unknown _ i back split) supplied

theorem AgreesThroughout.linkUnknownAtCalls {r : Renderer} (agrees : r.AgreesThroughout) :
    r.LinkUnknownAtCalls := by
  intro front call back split calls
  cases known : (r.entry (r.knowledgeAfter .unknown front) call).get? .link with
  | none => rfl
  | some value =>
    -- A machine whose call returns to any other address than the known value.
    let steps := front.map fun i => (i, (0 : BitVec 32))
    have reached : steps.map Prod.fst = front := by simp [steps, Function.comp_def]
    have behind := agrees .cleared (steps ++ [(call, value.toBitVec + 1)]) back
      (by simp [reached, split])
    rw [List.map_append, reached, List.map_singleton, knowledgeAfter_concat,
      r.next_of_isCall calls, registersAfter_concat, advance_of_isCall calls] at behind
    have read := behind .link value known
    rw [RegisterFile.write_read_self (by decide)] at read
    exact absurd read (by simp)

/-- Rendering is sound across the calls of a program exactly if no call is reached while a value of
the link register is known. This is so for where known values come from and for what the registers
of a machine hold. -/
theorem link_sound_iff_unknown_at_calls (r : Renderer) :
    (r.LinksAreFresh ↔ r.LinkUnknownAtCalls) ∧ (r.AgreesThroughout ↔ r.LinkUnknownAtCalls) :=
  ⟨⟨LinksAreFresh.linkUnknownAtCalls, LinkUnknownAtCalls.linksAreFresh⟩,
    ⟨AgreesThroughout.linkUnknownAtCalls, LinkUnknownAtCalls.agreesThroughout⟩⟩

/-- A value for the link register, a call, and a use of the register behind the call. -/
def staleText : String :=
  "0: 9d 20 03 00 l.addi r9,r0,0x300\n4: 04 00 00 0f l.jal 40\n8: 15 00 00 00 l.nop\n" ++
    "c: 9c 69 00 01 l.addi r3,r9,1\n"

def staleLines : List Line :=
  [.instruction "l_000000" "LR = 0x00000300" "l.addi r9,r0,0x300",
    .instruction "l_000004" "call fn_000040" "l.jal 40",
    .instruction "l_00000c" "A1 = 0x00000301" "l.addi r3,r9,1"]

/-- Behind the call the old value is still known, and is folded into a sum. -/
theorem stale_link_folded_behind_call :
    ∃ analysis, analyse delayedAnnotations #[] staleText = .ok analysis ∧
      ¬analysis.renderer.LinksAreFresh ∧
      analysis.renderer.linesFrom .unknown analysis.program.instructions = staleLines := by
  have outcome : (analyse delayedAnnotations #[] staleText).toOption.map (fun analysis =>
      (analysis.program.instructions.map (·.operation),
        (analysis.renderer.knowledgeAfter .unknown
          (analysis.program.instructions.take 2)).get? .link,
        analysis.renderer.linesFrom .unknown analysis.program.instructions)) =
      some ([.aluImmediate .addi .link .zero 0x300, .branch .jal 0x40,
        .aluImmediate .addi ⟨3⟩ .link 1], some 0x300, staleLines) := by
    decide +kernel
  cases analysed : analyse delayedAnnotations #[] staleText with
  | error fault =>
    rw [analysed] at outcome
    cases outcome
  | ok analysis =>
    rw [analysed] at outcome
    simp only [Except.toOption, Option.map_some, Option.some.injEq, Prod.mk.injEq] at outcome
    obtain ⟨operations, known, lines⟩ := outcome
    refine ⟨analysis, rfl, ?_, lines⟩
    intro fresh
    -- The program is cut behind its second instruction, the call.
    obtain ⟨first, rest, split, -, operations⟩ := List.map_eq_cons_iff.mp operations
    obtain ⟨call, back, rfl, calls, -⟩ := List.map_eq_cons_iff.mp operations
    rw [split] at known
    obtain ⟨before, i, after, place, -⟩ :=
      fresh [first, call] back 0x300 split known [first] call [] rfl (by rw [calls]; rfl)
    cases before <;> cases place

end Disassembly.Output.Renderer
