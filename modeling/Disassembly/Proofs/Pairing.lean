import Disassembly.Listing.Pairing
import Mathlib.Data.List.Basic
import Mathlib.Data.Nat.Find
import Std.Data.TreeSet.Lemmas

/-!
# Pairing as a law about neighbours

`Pairing.step` reads a listing from left to right and holds a transfer back until the next
instruction arrives. The law is stateless: what stands in the program at the place of an instruction
follows from that instruction and its two neighbours. `arranged` lies between the two. It consumes a
transfer together with its delay slot, and `Pairable` says on which listings it does so without a
clash; facts about paired programs go by induction on `Pairable`. A paired program has no transfer
that waits for an instruction behind it, so it is its own arrangement.
-/

namespace Disassembly.Listing

/-- A control transfer that has not been paired with its delay slot. -/
def Instruction.isUnpaired (i : Instruction) : Bool :=
  i.isControl && i.delaySlot.isNone

/-- A transfer and the instruction in its delay slot, in execution order. -/
def exchanged (control filler : Instruction) : List Instruction :=
  if filler.mnemonic.isNop then [{ control with delaySlot := some filler.listedAddress }]
  else
    [{ filler with address := control.address },
      { control with delaySlot := some filler.listedAddress, opensBlock := false }]

/-- The unpaired transfer at a position, with the instruction that follows it. -/
def slotAt? (listing : List Instruction) (n : Nat) : Option (Instruction × Instruction) :=
  match listing[n]?, listing[n + 1]? with
  | some control, some filler => if control.isUnpaired then some (control, filler) else none
  | _, _ => none

/-- A transfer stands in the delay slot of the unpaired transfer at a position. -/
def ClashAt (listing : List Instruction) (n : Nat) : Prop :=
  ∃ control filler, slotAt? listing n = some (control, filler) ∧ filler.isControl = true

/-- The instruction at a position, together with its delay slot if it is an unpaired transfer. -/
def withSlot (listing : List Instruction) (n : Nat) : List Instruction :=
  match slotAt? listing n with
  | some (control, filler) => exchanged control filler
  | none => listing[n]?.toList

/-- What stands in the program for the instruction at a position: nothing if the transfer before it
took it along. -/
def settledAt (listing : List Instruction) : Nat → List Instruction
  | 0 => withSlot listing 0
  | n + 1 => if (slotAt? listing n).isSome then [] else withSlot listing (n + 1)

/-- The program of a listing, position by position. -/
def settled (listing : List Instruction) : List Instruction :=
  (List.range listing.length).flatMap (settledAt listing)

/-- The program of a listing, a transfer and its delay slot at a time. -/
def arranged : List Instruction → List Instruction
  | [] => []
  | [i] => [i]
  | i :: next :: rest =>
    if i.isUnpaired then exchanged i next ++ arranged rest else i :: arranged (next :: rest)

/-- Listings in which no transfer stands in the delay slot of an unpaired one. -/
inductive Pairable : List Instruction → Prop
  | nil : Pairable []
  | plain {i : Instruction} {rest : List Instruction} (done : i.isUnpaired = false)
      (tail : Pairable rest) : Pairable (i :: rest)
  | pending {control : Instruction} (waits : control.isUnpaired = true) : Pairable [control]
  | pair {control filler : Instruction} {rest : List Instruction}
      (waits : control.isUnpaired = true) (fits : filler.isControl = false)
      (tail : Pairable rest) : Pairable (control :: filler :: rest)

/-! ### Positions -/

theorem slotAt?_eq_some {listing : List Instruction} {n : Nat} {control filler : Instruction} :
    slotAt? listing n = some (control, filler) ↔
      listing[n]? = some control ∧ control.isUnpaired = true ∧ listing[n + 1]? = some filler := by
  unfold slotAt?
  cases listing[n]? with
  | none => simp
  | some i =>
    cases listing[n + 1]? with
    | none => simp
    | some next =>
      by_cases waits : i.isUnpaired = true
      · simp only [waits, if_true, Option.some.injEq, Prod.mk.injEq]
        constructor
        · rintro ⟨rfl, rfl⟩
          exact ⟨rfl, waits, rfl⟩
        · rintro ⟨rfl, -, rfl⟩
          exact ⟨rfl, rfl⟩
      · simp only [waits]
        constructor
        · intro h
          cases h
        · rintro ⟨same, unpaired, -⟩
          cases same
          exact absurd unpaired waits

@[simp] theorem slotAt?_cons_succ (i : Instruction) (listing : List Instruction) (n : Nat) :
    slotAt? (i :: listing) (n + 1) = slotAt? listing n := by
  simp only [slotAt?, List.getElem?_cons_succ]

theorem slotAt?_zero_of_paired {i : Instruction} (done : i.isUnpaired = false)
    (listing : List Instruction) : slotAt? (i :: listing) 0 = none := by
  cases h : slotAt? (i :: listing) 0 with
  | none => rfl
  | some pair =>
    obtain ⟨same, waits, -⟩ := slotAt?_eq_some.mp h
    cases same
    simp [done] at waits

theorem slotAt?_zero_of_unpaired {control : Instruction} (waits : control.isUnpaired = true)
    (filler : Instruction) (rest : List Instruction) :
    slotAt? (control :: filler :: rest) 0 = some (control, filler) :=
  slotAt?_eq_some.mpr ⟨rfl, waits, rfl⟩

theorem isUnpaired_of_not_isControl {i : Instruction} (h : i.isControl = false) :
    i.isUnpaired = false := by
  simp [Instruction.isUnpaired, h]

theorem isControl_of_isUnpaired {i : Instruction} (h : i.isUnpaired = true) :
    i.isControl = true := by
  simp only [Instruction.isUnpaired, Bool.and_eq_true] at h
  exact h.1

theorem clashAt_cons_succ (i : Instruction) (listing : List Instruction) (n : Nat) :
    ClashAt (i :: listing) (n + 1) ↔ ClashAt listing n := by
  simp only [ClashAt, slotAt?_cons_succ]

/-! ### Listings without a clash -/

theorem Pairable.not_clashAt {listing : List Instruction} (pairable : Pairable listing) (n : Nat) :
    ¬ClashAt listing n := by
  induction pairable generalizing n with
  | nil => simp [ClashAt, slotAt?]
  | plain done _ ih =>
    cases n with
    | zero => simp [ClashAt, slotAt?_zero_of_paired done]
    | succ n =>
      rw [clashAt_cons_succ]
      exact ih n
  | pending => simp [ClashAt, slotAt?]
  | pair waits fits _ ih =>
    match n with
    | 0 => simp [ClashAt, slotAt?_zero_of_unpaired waits, fits]
    | 1 =>
      rw [clashAt_cons_succ]
      simp [ClashAt, slotAt?_zero_of_paired (isUnpaired_of_not_isControl fits)]
    | n + 2 =>
      rw [clashAt_cons_succ, clashAt_cons_succ]
      exact ih n

theorem pairable_of_not_clashAt (listing : List Instruction)
    (clear : ∀ n, ¬ClashAt listing n) : Pairable listing := by
  induction listing using arranged.induct with
  | case1 => exact .nil
  | case2 i =>
    cases waits : i.isUnpaired with
    | false => exact .plain waits .nil
    | true => exact .pending waits
  | case3 control filler rest waits ih =>
    -- The filler is no transfer, so it opens no slot and the tail may start behind it.
    have fits : filler.isControl = false := by
      cases h : filler.isControl with
      | false => rfl
      | true => exact absurd ⟨control, filler, slotAt?_zero_of_unpaired waits filler rest, h⟩ (clear 0)
    refine .pair waits fits (ih fun n clash => clear (n + 2) ?_)
    rw [clashAt_cons_succ, clashAt_cons_succ]
    exact clash
  | case4 i next rest done ih =>
    refine .plain (by simpa using done) (ih fun n clash => clear (n + 1) ?_)
    rw [clashAt_cons_succ]
    exact clash

theorem pairable_iff (listing : List Instruction) :
    Pairable listing ↔ ∀ n, ¬ClashAt listing n :=
  ⟨fun pairable => pairable.not_clashAt, pairable_of_not_clashAt listing⟩

theorem Pairable.front {front back : List Instruction} (pairable : Pairable (front ++ back)) :
    Pairable front := by
  rw [pairable_iff]
  rintro n ⟨control, filler, slot, clash⟩
  obtain ⟨here, waits, next⟩ := slotAt?_eq_some.mp slot
  have inFront {m : Nat} {i : Instruction} (found : front[m]? = some i) :
      (front ++ back)[m]? = some i := by
    obtain ⟨bound, -⟩ := List.getElem?_eq_some_iff.mp found
    rw [List.getElem?_append_left bound, found]
  exact pairable.not_clashAt n
    ⟨control, filler, slotAt?_eq_some.mpr ⟨inFront here, waits, inFront next⟩, clash⟩

/-- No transfer waits for its delay slot when another transfer comes. -/
theorem Pairable.idle_before {front back : List Instruction} {control last : Instruction}
    (pairable : Pairable (front ++ control :: back)) (transfers : control.isControl = true)
    (ends : front.getLast? = some last) : last.isUnpaired = false := by
  obtain ⟨before, rfl⟩ := List.getLast?_eq_some_iff.mp ends
  cases waits : last.isUnpaired with
  | false => rfl
  | true =>
    have slot : slotAt? (before ++ [last] ++ control :: back) before.length =
        some (last, control) := by
      rw [slotAt?_eq_some]
      exact ⟨by simp, waits, by simp⟩
    exact absurd ⟨last, control, slot, transfers⟩ (pairable.not_clashAt before.length)

/-! ### Both descriptions agree -/

theorem arranged_plain {i : Instruction} (done : i.isUnpaired = false) (rest : List Instruction) :
    arranged (i :: rest) = i :: arranged rest := by
  cases rest with
  | nil => rfl
  | cons next rest => simp [arranged, done]

theorem arranged_pair {control : Instruction} (waits : control.isUnpaired = true)
    (filler : Instruction) (rest : List Instruction) :
    arranged (control :: filler :: rest) = exchanged control filler ++ arranged rest := by
  simp [arranged, waits]

@[simp] theorem withSlot_cons_succ (i : Instruction) (listing : List Instruction) (n : Nat) :
    withSlot (i :: listing) (n + 1) = withSlot listing n := by
  simp only [withSlot, slotAt?_cons_succ, List.getElem?_cons_succ]

theorem settledAt_cons_add_two (i : Instruction) (listing : List Instruction) (n : Nat) :
    settledAt (i :: listing) (n + 2) = settledAt listing (n + 1) := by
  simp [settledAt]

theorem settledAt_succ_of_paired {i : Instruction} (done : i.isUnpaired = false)
    (listing : List Instruction) (n : Nat) :
    settledAt (i :: listing) (n + 1) = settledAt listing n := by
  cases n with
  | zero => simp [settledAt, slotAt?_zero_of_paired done]
  | succ n => exact settledAt_cons_add_two i listing n

/-- Positions shift by one: the first one is settled by itself. -/
theorem settled_cons (i : Instruction) (listing : List Instruction) :
    settled (i :: listing) =
      settledAt (i :: listing) 0 ++
        (List.range listing.length).flatMap fun n => settledAt (i :: listing) (n + 1) := by
  simp only [settled, List.length_cons, List.range_succ_eq_map, List.flatMap_cons,
    List.flatMap_map, Nat.succ_eq_add_one]

theorem settled_plain {i : Instruction} (done : i.isUnpaired = false) (rest : List Instruction) :
    settled (i :: rest) = i :: settled rest := by
  have first : settledAt (i :: rest) 0 = [i] := by
    simp [settledAt, withSlot, slotAt?_zero_of_paired done]
  rw [settled_cons, first]
  simp only [settledAt_succ_of_paired done, settled, List.singleton_append]

theorem settled_pair {control filler : Instruction} (waits : control.isUnpaired = true)
    (fits : filler.isControl = false) (rest : List Instruction) :
    settled (control :: filler :: rest) = exchanged control filler ++ settled rest := by
  -- The first position settles both instructions and the second one nothing.
  have first : settledAt (control :: filler :: rest) 0 = exchanged control filler := by
    simp [settledAt, withSlot, slotAt?_zero_of_unpaired waits]
  have taken : settledAt (control :: filler :: rest) 1 = [] := by
    simp [settledAt, slotAt?_zero_of_unpaired waits]
  have later (n : Nat) : settledAt (control :: filler :: rest) (n + 2) = settledAt rest n := by
    rw [settledAt_cons_add_two, settledAt_succ_of_paired (isUnpaired_of_not_isControl fits)]
  rw [settled_cons, first, List.length_cons, List.range_succ_eq_map, List.flatMap_cons, taken,
    List.nil_append, List.flatMap_map]
  simp only [Nat.succ_eq_add_one, later, settled]

theorem Pairable.arranged_eq_settled {listing : List Instruction} (pairable : Pairable listing) :
    arranged listing = settled listing := by
  induction pairable with
  | nil => rfl
  | plain done _ ih => rw [arranged_plain done, settled_plain done, ih]
  | pending waits => simp [arranged, settled, settledAt, withSlot, slotAt?]
  | pair waits fits _ ih => rw [arranged_pair waits, settled_pair waits fits, ih]

/-! ### What pairing keeps -/

theorem filterMap_exchanged {α : Type} {f : Instruction → Option α}
    (plain : ∀ i, i.isControl = false → f i = none)
    (kept : ∀ i slot opens, f { i with delaySlot := slot, opensBlock := opens } = f i)
    (control : Instruction) {filler : Instruction} (fits : filler.isControl = false) :
    (exchanged control filler).filterMap f = [control, filler].filterMap f := by
  have none : f filler = none := plain filler fits
  have moved : f { filler with address := control.address } = Option.none := plain _ fits
  have paired (opens : Bool) := kept control (some filler.listedAddress) opens
  unfold exchanged
  split
  · simp only [List.filterMap_cons, List.filterMap_nil, none, paired control.opensBlock]
  · simp only [List.filterMap_cons, List.filterMap_nil, none, moved, paired false]

/-- Pairing moves no transfer past another one. What is read off transfers alone, and not off their
delay slots, is therefore the same in the program as in the listing. -/
theorem Pairable.filterMap_arranged {α : Type} {f : Instruction → Option α}
    (plain : ∀ i, i.isControl = false → f i = none)
    (kept : ∀ i slot opens, f { i with delaySlot := slot, opensBlock := opens } = f i)
    {listing : List Instruction} (pairable : Pairable listing) :
    (arranged listing).filterMap f = listing.filterMap f := by
  induction pairable with
  | nil => rfl
  | plain done _ ih => simp only [arranged_plain done, List.filterMap_cons, ih]
  | pending _ => rfl
  | @pair control filler rest waits fits _ ih =>
    rw [arranged_pair waits, List.filterMap_append, filterMap_exchanged plain kept _ fits, ih,
      ← List.filterMap_append]
    rfl

namespace Pairing

/-! ### What one step does -/

theorem step_plain {p : Pairing} {i : Instruction} (idle : p.held = none)
    (done : i.isUnpaired = false) : p.step i = .ok (p.emit i) := by
  have off : (i.delaySlot.isNone && i.isControl) = false := by
    rw [Bool.and_comm]
    exact done
  simp [step, idle, off]

theorem step_hold {p : Pairing} {control : Instruction} (idle : p.held = none)
    (waits : control.isUnpaired = true) : p.step control = .ok { p with held := some control } := by
  have on : (control.delaySlot.isNone && control.isControl) = true := by
    rw [Bool.and_comm]
    exact waits
  simp [step, idle, on]

theorem step_fill {p : Pairing} {control filler : Instruction} (holds : p.held = some control)
    (fits : filler.isControl = false) : p.step filler = .ok (p.fill control filler) := by
  simp [step, holds, fits]

theorem step_clash {p : Pairing} {control filler : Instruction} (holds : p.held = some control)
    (clash : filler.isControl = true) :
    p.step filler = .error (.doubleDelay control.listedAddress filler.listedAddress) := by
  simp [step, holds, clash]

@[simp] theorem emit_held (p : Pairing) (i : Instruction) : (p.emit i).held = p.held := rfl

@[simp] theorem emit_delaySlots (p : Pairing) (i : Instruction) :
    (p.emit i).delaySlots = p.delaySlots := rfl

@[simp] theorem emit_program (p : Pairing) (i : Instruction) :
    (p.emit i).program.toList = p.program.toList ++ [i] := by
  simp [emit]

@[simp] theorem fill_held (p : Pairing) (control filler : Instruction) :
    (p.fill control filler).held = none := by
  unfold fill
  dsimp only
  split <;> rfl

@[simp] theorem fill_delaySlots (p : Pairing) (control filler : Instruction) :
    (p.fill control filler).delaySlots = p.delaySlots.insert filler.listedAddress := by
  unfold fill
  dsimp only
  split <;> rfl

@[simp] theorem fill_program (p : Pairing) (control filler : Instruction) :
    (p.fill control filler).program.toList = p.program.toList ++ exchanged control filler := by
  unfold fill exchanged
  dsimp only
  split <;> simp

/-! ### Runs -/

/-- The addresses of the instructions that stand in delay slots. -/
def InSlot (listing : List Instruction) (address : UInt32) : Prop :=
  ∃ n control filler, slotAt? listing n = some (control, filler) ∧ filler.listedAddress = address

theorem inSlot_plain {i : Instruction} (done : i.isUnpaired = false) (rest : List Instruction)
    (address : UInt32) : InSlot (i :: rest) address ↔ InSlot rest address := by
  constructor
  · rintro ⟨n, control, filler, slot, same⟩
    cases n with
    | zero => simp [slotAt?_zero_of_paired done] at slot
    | succ n => exact ⟨n, control, filler, by simpa using slot, same⟩
  · rintro ⟨n, control, filler, slot, same⟩
    exact ⟨n + 1, control, filler, by simpa using slot, same⟩

theorem inSlot_pair {control filler : Instruction} (waits : control.isUnpaired = true)
    (fits : filler.isControl = false) (rest : List Instruction) (address : UInt32) :
    InSlot (control :: filler :: rest) address ↔
      filler.listedAddress = address ∨ InSlot rest address := by
  rw [← inSlot_plain (isUnpaired_of_not_isControl fits) rest]
  constructor
  · rintro ⟨n, c, f, slot, same⟩
    cases n with
    | zero =>
      rw [slotAt?_zero_of_unpaired waits] at slot
      cases slot
      exact .inl same
    | succ n => exact .inr ⟨n, c, f, by simpa using slot, same⟩
  · rintro (same | ⟨n, c, f, slot, same⟩)
    · exact ⟨0, control, filler, slotAt?_zero_of_unpaired waits filler rest, same⟩
    · exact ⟨n + 1, c, f, by simpa using slot, same⟩

/-- The machine that is idle and meets a listing without a clash emits the arranged listing and
records its delay slots. -/
theorem run_of_pairable {listing : List Instruction} (pairable : Pairable listing) (p : Pairing)
    (idle : p.held = none) :
    ∃ q, listing.foldlM step p = .ok q ∧
      q.finish.program.toList = p.program.toList ++ arranged listing ∧
      ∀ address, address ∈ q.finish.delaySlots ↔
        address ∈ p.delaySlots ∨ InSlot listing address := by
  induction pairable generalizing p with
  | nil => exact ⟨p, rfl, by simp [finish, idle, arranged], by simp [finish, idle, InSlot, slotAt?]⟩
  | @plain i rest done _ ih =>
    obtain ⟨q, ran, program, slots⟩ := ih (p.emit i) idle
    refine ⟨q, ?_, ?_, ?_⟩
    · rw [List.foldlM_cons, step_plain idle done]
      exact ran
    · rw [program, arranged_plain done, emit_program, List.append_assoc, List.singleton_append]
    · intro address
      rw [slots, emit_delaySlots, inSlot_plain done]
  | @pending control waits =>
    refine ⟨{ p with held := some control }, ?_, by simp [finish, arranged], ?_⟩
    · rw [List.foldlM_cons, step_hold idle waits]
      rfl
    · simp [finish, InSlot, slotAt?]
  | @pair control filler rest waits fits _ ih =>
    -- Two steps: the transfer is held, and then completed. The machine is idle again after both.
    obtain ⟨q, ran, program, slots⟩ :=
      ih (({ p with held := some control } : Pairing).fill control filler) (fill_held _ _ _)
    refine ⟨q, ?_, ?_, ?_⟩
    · rw [List.foldlM_cons, step_hold idle waits]
      change List.foldlM step _ (filler :: rest) = _
      rw [List.foldlM_cons, step_fill rfl fits]
      exact ran
    · rw [program, arranged_pair waits, fill_program, List.append_assoc]
    · intro address
      rw [slots, fill_delaySlots, inSlot_pair waits fits, Std.TreeSet.mem_insert,
        Std.compare_eq_iff_eq, or_assoc]
      tauto

/-- The machine stops at the first clash. -/
theorem run_of_clash (listing : List Instruction) (p : Pairing) (idle : p.held = none) {n : Nat}
    {control filler : Instruction} (slot : slotAt? listing n = some (control, filler))
    (clash : filler.isControl = true) (first : ∀ m < n, ¬ClashAt listing m) :
    listing.foldlM step p = .error (.doubleDelay control.listedAddress filler.listedAddress) := by
  induction listing using arranged.induct generalizing p n with
  | case1 => simp [slotAt?] at slot
  | case2 i => simp [slotAt?] at slot
  | case3 held next rest waits ih =>
    rw [List.foldlM_cons, step_hold idle waits]
    change List.foldlM step _ (next :: rest) = _
    rw [List.foldlM_cons]
    cases n with
    | zero =>
      rw [slotAt?_zero_of_unpaired waits] at slot
      cases slot
      rw [step_clash rfl clash]
      rfl
    | succ n =>
      -- No clash at the first position, so `next` is consumed as a filler and opens no slot itself.
      have fits : next.isControl = false := by
        cases h : next.isControl with
        | false => rfl
        | true =>
          exact absurd ⟨held, next, slotAt?_zero_of_unpaired waits next rest, h⟩ (first 0 (by omega))
      rw [slotAt?_cons_succ] at slot
      cases n with
      | zero => simp [slotAt?_zero_of_paired (isUnpaired_of_not_isControl fits)] at slot
      | succ n =>
        rw [step_fill rfl fits]
        refine ih _ (fill_held _ _ _) (by simpa using slot) fun m earlier found => ?_
        refine first (m + 2) (by omega) ?_
        rw [clashAt_cons_succ, clashAt_cons_succ]
        exact found
  | case4 i next rest done ih =>
    have paired : i.isUnpaired = false := by simpa using done
    rw [List.foldlM_cons, step_plain idle paired]
    cases n with
    | zero => simp [slotAt?_zero_of_paired paired] at slot
    | succ n =>
      refine ih (p.emit i) idle (by simpa using slot) fun m earlier found => ?_
      refine first (m + 1) (by omega) ?_
      rw [clashAt_cons_succ]
      exact found

/-! ### Whole listings -/

theorem ofInstructions_of_pairable {listing : List Instruction} (pairable : Pairable listing) :
    ∃ p, ofInstructions listing = .ok p ∧ p.program.toList = arranged listing ∧
      ∀ address, address ∈ p.delaySlots ↔ InSlot listing address := by
  obtain ⟨q, ran, program, slots⟩ := run_of_pairable pairable {} rfl
  refine ⟨q.finish, ?_, by simpa using program, ?_⟩
  · rw [ofInstructions, ran]
    rfl
  · intro address
    rw [slots]
    simp

theorem ofInstructions_of_clash {listing : List Instruction} {n : Nat}
    {control filler : Instruction} (slot : slotAt? listing n = some (control, filler))
    (clash : filler.isControl = true) (first : ∀ m < n, ¬ClashAt listing m) :
    ofInstructions listing =
      .error (.doubleDelay control.listedAddress filler.listedAddress) := by
  rw [ofInstructions, run_of_clash listing {} rfl slot clash first]
  rfl

theorem exists_first_clash {listing : List Instruction} (found : ∃ n, ClashAt listing n) :
    ∃ n control filler, slotAt? listing n = some (control, filler) ∧ filler.isControl = true ∧
      ∀ m < n, ¬ClashAt listing m := by
  -- Clashes are not decided here, the least position is only needed to exist.
  classical
  obtain ⟨control, filler, slot, clash⟩ := Nat.find_spec found
  exact ⟨Nat.find found, control, filler, slot, clash, fun m => Nat.find_min found⟩

theorem pairable_of_ofInstructions {listing : List Instruction} {p : Pairing}
    (returned : ofInstructions listing = .ok p) : Pairable listing := by
  rw [pairable_iff]
  intro n clash
  obtain ⟨m, control, filler, slot, stands, first⟩ := exists_first_clash ⟨n, clash⟩
  rw [ofInstructions_of_clash slot stands first] at returned
  cases returned

/-- A paired program is the arranged listing; its delay slots are those of the listing. -/
theorem ofInstructions_ok {listing : List Instruction} {p : Pairing}
    (returned : ofInstructions listing = .ok p) :
    Pairable listing ∧ p.program.toList = arranged listing ∧
      ∀ address, address ∈ p.delaySlots ↔ InSlot listing address := by
  have pairable := pairable_of_ofInstructions returned
  obtain ⟨q, again, program, slots⟩ := ofInstructions_of_pairable pairable
  rw [returned] at again
  cases again
  exact ⟨pairable, program, slots⟩

/-- Pairing fails exactly when a transfer stands in the delay slot of an unpaired one, and names the
first two that do. Any other listing becomes the program that is settled position by position. -/
theorem ofInstructions_closed_form (listing : List Instruction) :
    ((∃ fault, ofInstructions listing = .error fault) ↔ ∃ n, ClashAt listing n) ∧
    (∀ n control filler, slotAt? listing n = some (control, filler) → filler.isControl = true →
      (∀ m < n, ¬ClashAt listing m) →
      ofInstructions listing =
        .error (.doubleDelay control.listedAddress filler.listedAddress)) ∧
    ((∀ n, ¬ClashAt listing n) →
      ∃ p, ofInstructions listing = .ok p ∧ p.program.toList = settled listing ∧
        ∀ address, address ∈ p.delaySlots ↔
          ∃ n control filler, slotAt? listing n = some (control, filler) ∧
            filler.listedAddress = address) := by
  have succeeds (clear : ∀ n, ¬ClashAt listing n) := by
    have pairable := (pairable_iff listing).mpr clear
    have paired := ofInstructions_of_pairable pairable
    rwa [pairable.arranged_eq_settled] at paired
  refine ⟨⟨?_, ?_⟩, fun n control filler => ofInstructions_of_clash, succeeds⟩
  · rintro ⟨fault, failed⟩
    by_contra none
    obtain ⟨p, returned, -⟩ := succeeds (not_exists.mp none)
    rw [failed] at returned
    cases returned
  · intro found
    obtain ⟨n, control, filler, slot, clash, first⟩ := exists_first_clash found
    exact ⟨_, ofInstructions_of_clash slot clash first⟩

end Pairing

/-! ### Pairing a paired program -/

theorem slotAt?_cons_of_paired {i : Instruction} (done : i.isUnpaired = false)
    {rest : List Instruction} (later : ∀ n, slotAt? rest n = none) (n : Nat) :
    slotAt? (i :: rest) n = none := by
  cases n with
  | zero => exact slotAt?_zero_of_paired done rest
  | succ n => rw [slotAt?_cons_succ, later]

/-- Pairing leaves no slot to fill: every transfer of a paired program has its delay slot, except one
at the very end, behind which nothing follows. -/
theorem Pairable.slotAt?_arranged {listing : List Instruction} (pairable : Pairable listing)
    (n : Nat) : slotAt? (arranged listing) n = none := by
  induction pairable generalizing n with
  | nil => rfl
  | plain done _ ih =>
    rw [arranged_plain done]
    exact slotAt?_cons_of_paired done ih n
  | pending _ => simp [arranged, slotAt?]
  | @pair control filler rest waits fits _ ih =>
    have paired (opens : Bool) : Instruction.isUnpaired
        { control with delaySlot := some filler.listedAddress, opensBlock := opens } = false := by
      simp [Instruction.isUnpaired]
    have moved : Instruction.isUnpaired { filler with address := control.address } = false :=
      isUnpaired_of_not_isControl fits
    rw [arranged_pair waits, exchanged]
    split
    · exact slotAt?_cons_of_paired (paired control.opensBlock) ih n
    · exact slotAt?_cons_of_paired moved (slotAt?_cons_of_paired (paired false) ih) n

/-- Where no slot is to be filled there is nothing to arrange. -/
theorem arranged_eq_self {program : List Instruction} (filled : ∀ n, slotAt? program n = none) :
    arranged program = program := by
  induction program using arranged.induct with
  | case1 => rfl
  | case2 i => rfl
  | case3 control filler rest waits _ =>
    have slot := slotAt?_zero_of_unpaired waits filler rest
    rw [filled 0] at slot
    cases slot
  | case4 i next rest done ih =>
    have later (n : Nat) : slotAt? (next :: rest) n = none := by
      rw [← slotAt?_cons_succ i]
      exact filled (n + 1)
    rw [arranged_plain (by simpa using done), ih later]

namespace Pairing

/-- A paired program is paired to itself, and has no delay slots any more. -/
theorem ofInstructions_idempotent (listing : List Instruction) (p : Pairing)
    (returned : ofInstructions listing = .ok p) :
    ∃ again, ofInstructions p.program.toList = .ok again ∧ again.program = p.program ∧
      again.delaySlots.isEmpty = true := by
  obtain ⟨pairable, arrangement, -⟩ := ofInstructions_ok returned
  have filled := pairable.slotAt?_arranged
  rw [← arrangement] at filled
  have clear : Pairable p.program.toList := by
    rw [pairable_iff]
    rintro n ⟨control, filler, slot, -⟩
    rw [filled] at slot
    cases slot
  obtain ⟨again, returnedAgain, program, slots⟩ := ofInstructions_of_pairable clear
  refine ⟨again, returnedAgain, ?_, ?_⟩
  · rw [arranged_eq_self filled] at program
    exact Array.toList_inj.mp program
  · rw [Std.TreeSet.isEmpty_iff_forall_not_mem]
    intro address recorded
    obtain ⟨n, control, filler, slot, -⟩ := (slots address).mp recorded
    rw [filled] at slot
    cases slot

/-- A call with a filler, a branch that is paired already, a return with a `nop`, and a jump at the
end. -/
def partlyPaired : List Instruction :=
  [{ address := 0, listedAddress := 0, operation := .branch .jal 0x20, text := "l.jal 20" },
    { address := 4, listedAddress := 4, operation := .bare .msync, text := "l.msync" },
    { address := 8, listedAddress := 8, operation := .branch .bf 0, text := "l.bf 0",
      opensBlock := false, delaySlot := some 12 },
    { address := 16, listedAddress := 16, operation := .registerBranch .jr .link, text := "l.jr r9" },
    { address := 20, listedAddress := 20, operation := .bare .nop, text := "l.nop" },
    { address := 24, listedAddress := 24, operation := .branch .j 0, text := "l.j 0" }]

theorem ofInstructions_idempotent_partlyPaired :
    ∃ p again, ofInstructions partlyPaired = .ok p ∧
      p.program.toList.map (·.text) = ["l.msync", "l.jal 20", "l.bf 0", "l.jr r9", "l.j 0"] ∧
      ofInstructions p.program.toList = .ok again ∧ again.program = p.program ∧
      again.delaySlots.isEmpty = true := by
  have pairable : Pairable partlyPaired :=
    .pair rfl rfl (.plain rfl (.pair rfl rfl (.pending rfl)))
  obtain ⟨p, returned, arrangement, -⟩ := ofInstructions_of_pairable pairable
  obtain ⟨again, repeated⟩ := ofInstructions_idempotent partlyPaired p returned
  refine ⟨p, again, returned, ?_, repeated⟩
  rw [arrangement]
  decide

end Pairing

end Disassembly.Listing
