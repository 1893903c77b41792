import Disassembly.Proofs.Annotation
import Disassembly.Proofs.Calls
import Mathlib.Data.List.Chain

/-!
# What a transfer reads when its delay slot comes first

A machine with delay slots reads the flag or the register that a transfer depends on when it comes
to the transfer, and executes the delay slot afterwards. A paired program has the delay slot first.
So a transfer is met one instruction later and reads what its delay slot has left, which makes no
difference unless the delay slot writes what the transfer reads. A call also writes: its return
address is in the link register before the delay slot is executed, and in the program only after it.
Where no delay slot of a call uses the link register, the program takes the machine through the same
states (`delayedAfter_eq`). Pairing looks for neither.
-/

namespace Disassembly.Isa

/-- Whether a relation holds of two words. -/
def Comparison.holds (relation : Comparison) (x y : BitVec 32) : Bool :=
  match relation with
  | .eq => x == y
  | .ne => x != y
  | .gtu => y.ult x
  | .geu => y.ule x
  | .ltu => x.ult y
  | .leu => x.ule y
  | .gts => y.slt x
  | .ges => y.sle x
  | .lts => x.slt y
  | .les => x.sle y

/-- The registers and the condition flag. -/
structure Cpu where
  registers : RegisterFile
  flag : Bool

namespace Cpu

/-- The flag after an operation: only comparisons set it. -/
def flagAfter (cpu : Cpu) : Operation → Bool
  | .compare relation a b => relation.holds (cpu.registers.read a) (cpu.registers.read b)
  | .compareImmediate relation a i => relation.holds (cpu.registers.read a) i.toBitVec
  | _ => cpu.flag

/-- The state after an operation. Of a control transfer this is what it leaves in the registers: a
call is supplied its return address. -/
def execute (cpu : Cpu) (supplied : BitVec 32) (operation : Operation) : Cpu where
  registers := advance cpu.registers supplied operation
  flag := cpu.flagAfter operation

end Cpu

/-- What a control transfer takes from the machine. -/
inductive TransferInput where
  | nothing
  | flag (value : Bool)
  | word (value : BitVec 32)
  deriving DecidableEq

namespace Operation

/-- Conditional branches read the flag, transfers through a register read that register. -/
def input (operation : Operation) (cpu : Cpu) : TransferInput :=
  match operation with
  | .branch .bf _ | .branch .bnf _ => .flag cpu.flag
  | .registerBranch _ d => .word (cpu.registers.read d)
  | _ => .nothing

def isComparison : Operation → Bool
  | .compare .. | .compareImmediate .. => true
  | _ => false

/-- Whether an operation writes what a control transfer reads. Writes to `r0` have no effect. -/
def disturbs (filler control : Operation) : Bool :=
  match control with
  | .branch .bf _ | .branch .bnf _ => filler.isComparison
  | .registerBranch _ d => !d.isZero && filler.destination? = some d
  | _ => false

/-- The registers whose contents an operation uses. -/
def sources : Operation → List Register
  | .alu _ _ a b | .mtspr a b _ | .compare _ a b => [a, b]
  | .store _ d a _ => [d, a]
  | .aluImmediate _ _ a _ | .load _ _ a _ | .mfspr _ a _ | .compareImmediate _ a _ => [a]
  | .registerBranch _ d => [d]
  | .movhi .. | .branch .. | .bare _ => []

/-- An operation neither reads nor writes a register. -/
def Avoids (operation : Operation) (r : Register) : Prop :=
  r ∉ operation.sources ∧ operation.destination? ≠ some r

instance (operation : Operation) (r : Register) : Decidable (operation.Avoids r) :=
  inferInstanceAs (Decidable (_ ∧ _))

theorem isCall_of_not_isControl {operation : Operation}
    (straight : operation.mnemonic.isControl = false) : operation.isCall = false := by
  cases operation with
  | branch op | registerBranch op => cases op <;> cases straight
  | _ => rfl

end Operation

/-! ### What an operation leaves alone -/

theorem Cpu.flag_execute {operation : Operation} (noComparison : operation.isComparison = false)
    (cpu : Cpu) (supplied : BitVec 32) : (cpu.execute supplied operation).flag = cpu.flag := by
  cases operation with
  | compare | compareImmediate => cases noComparison
  | _ => rfl

theorem Cpu.read_execute {operation : Operation} {r : Register}
    (noCall : operation.isCall = false) (other : operation.destination? ≠ some r) (cpu : Cpu)
    (supplied : BitVec 32) :
    (cpu.execute supplied operation).registers.read r = cpu.registers.read r := by
  have apart {d : Register} (writes : operation.destination? = some d) : r ≠ d := by
    rintro rfl
    exact other writes
  simp only [execute, advance, noCall, Bool.false_eq_true, if_false]
  cases operation with
  | alu | aluImmediate | movhi | load | mfspr =>
    exact RegisterFile.write_read_of_ne (apart rfl) cpu.registers _
  | branch | registerBranch | store | mtspr | compare | compareImmediate | bare => rfl

theorem Operation.input_execute {filler control : Operation} (noCall : filler.isCall = false)
    (undisturbed : filler.disturbs control = false) (cpu : Cpu) (supplied : BitVec 32) :
    control.input (cpu.execute supplied filler) = control.input cpu := by
  cases control with
  | branch op target =>
    cases op with
    | bf | bnf => exact congrArg TransferInput.flag (cpu.flag_execute undisturbed supplied)
    | j | jal => rfl
  | registerBranch op d =>
    refine congrArg TransferInput.word ?_
    by_cases zero : d = .zero
    · -- Whatever is written to it, `r0` reads as zero.
      subst zero
      rw [RegisterFile.read_zero, RegisterFile.read_zero]
    · have other : filler.destination? ≠ some d := by
        simpa [disturbs, Register.isZero, zero] using undisturbed
      exact cpu.read_execute noCall other supplied
  | _ => rfl

/-! ### Operations that can be exchanged -/

theorem Operation.Avoids.read_write {operation : Operation} {r a : Register}
    (avoids : operation.Avoids r) (uses : a ∈ operation.sources) (file : RegisterFile)
    (word : BitVec 32) : (file.write r word).read a = file.read a := by
  refine RegisterFile.write_read_of_ne ?_ file word
  rintro rfl
  exact avoids.1 uses

theorem Operation.Avoids.execute?_write {operation : Operation} {r : Register}
    (avoids : operation.Avoids r) (file : RegisterFile) (word supplied : BitVec 32) :
    execute? (file.write r word) supplied operation =
      (execute? file supplied operation).map (·.write r word) := by
  have source {a : Register} (uses : a ∈ operation.sources) := avoids.read_write uses file word
  have exchange {d : Register} (writes : operation.destination? = some d) (result : BitVec 32) :
      (file.write r word).write d result = (file.write d result).write r word := by
    refine RegisterFile.write_comm ?_ file word result
    rintro rfl
    exact avoids.2 writes
  cases operation with
  | alu op d a b =>
    simp only [execute?, Option.map_some, exchange rfl, source (a := a) (by simp [sources]),
      source (a := b) (by simp [sources])]
  | aluImmediate op d a i =>
    simp only [execute?, Option.map_some, exchange rfl, source (a := a) (by simp [sources])]
  | movhi | load | mfspr => simp only [execute?, Option.map_some, exchange rfl]
  | branch | registerBranch | store | mtspr | compare | compareImmediate | bare => rfl

theorem Operation.Avoids.flagAfter_write {operation : Operation} {r : Register}
    (avoids : operation.Avoids r) (cpu : Cpu) (word : BitVec 32) :
    Cpu.flagAfter { cpu with registers := cpu.registers.write r word } operation =
      cpu.flagAfter operation := by
  have source {a : Register} (uses : a ∈ operation.sources) :=
    avoids.read_write uses cpu.registers word
  cases operation with
  | compare relation a b =>
    simp only [Cpu.flagAfter, source (a := a) (by simp [sources]),
      source (a := b) (by simp [sources])]
  | compareImmediate relation a i =>
    simp only [Cpu.flagAfter, source (a := a) (by simp [sources])]
  | _ => rfl

/-- A transfer and what is in its delay slot leave the same behind in either order, unless the
transfer is a call and the other uses the link register. -/
theorem Cpu.execute_comm {control filler : Operation} (transfers : control.mnemonic.isControl = true)
    (straight : filler.mnemonic.isControl = false)
    (avoids : control.isCall = true → filler.Avoids .link) (cpu : Cpu) (x y : BitVec 32) :
    (cpu.execute x control).execute y filler = (cpu.execute y filler).execute x control := by
  have keepsFlag (cpu : Cpu) : cpu.flagAfter control = cpu.flag := by
    cases control with
    | branch | registerBranch => rfl
    | _ => cases transfers
  have noCall := Operation.isCall_of_not_isControl straight
  cases calls : control.isCall with
  | true =>
    -- The write of the call is to a register that the other operation leaves alone.
    have apart := avoids calls
    simp only [execute, keepsFlag, advance_of_isCall calls, mk.injEq]
    constructor
    · simp only [advance, noCall, Bool.false_eq_true, if_false, apart.execute?_write]
      cases execute? cpu.registers y filler <;> rfl
    · exact apart.flagAfter_write cpu x
  | false =>
    -- No other transfer changes anything here.
    have keepsRegisters (file : RegisterFile) : advance file x control = file := by
      simp only [advance, calls, Bool.false_eq_true, if_false]
      cases control with
      | branch | registerBranch => rfl
      | _ => cases transfers
    simp only [execute, keepsFlag, keepsRegisters]

end Disassembly.Isa

namespace Disassembly.Listing

open Isa

/-- What the machine meets on its way through a listing. -/
structure Surroundings where
  /-- The word that the load, special register read or call at an address is supplied. -/
  supplied : UInt32 → BitVec 32
  /-- The state in which the instruction behind a transfer and its delay slot is reached, given the
  state in which the transfer takes effect. Control may have been anywhere in between. -/
  resumed : UInt32 → Cpu → Cpu

/-- A machine with delay slots. `pending` is a transfer that has been read and takes effect after
the next instruction. -/
structure DelayedCpu where
  cpu : Cpu
  pending : Option Instruction := none

/-- What identifies a control transfer in a listing and in its program. -/
def Instruction.transfer? (i : Instruction) : Option (UInt32 × Operation) :=
  if i.isControl then some (i.listedAddress, i.operation) else none

/-- No delay slot of a call reads or writes the link register. -/
def LinkUnusedBehindCalls (listing : List Instruction) : Prop :=
  listing.IsChain fun call filler =>
    call.operation.isCall = true → filler.operation.Avoids .link

instance (listing : List Instruction) : Decidable (LinkUnusedBehindCalls listing) :=
  inferInstanceAs (Decidable (List.IsChain _ listing))

namespace Surroundings

variable (around : Surroundings)

def execute (cpu : Cpu) (i : Instruction) : Cpu :=
  cpu.execute (around.supplied i.listedAddress) i.operation

/-- The next instruction of a listing, on the machine with delay slots. What a transfer leaves in the
registers is there before its delay slot is executed. -/
def delayedStep (s : DelayedCpu) (i : Instruction) : DelayedCpu :=
  match s.pending with
  | some control => { cpu := around.resumed control.listedAddress (around.execute s.cpu i) }
  | none => { cpu := around.execute s.cpu i, pending := if i.isControl then some i else none }

def delayedAfter (start : Cpu) (listing : List Instruction) : DelayedCpu :=
  listing.foldl around.delayedStep { cpu := start }

/-- The next instruction of a program that is read from top to bottom. -/
def sequentialStep (cpu : Cpu) (i : Instruction) : Cpu :=
  if i.isControl then around.resumed i.listedAddress (around.execute cpu i)
  else around.execute cpu i

def sequentialAfter (start : Cpu) (program : List Instruction) : Cpu :=
  program.foldl around.sequentialStep start

/-- The state after the delay slot in front of what follows a transfer; a transfer at the end of the
listing has none. -/
def afterSlot (cpu : Cpu) : List Instruction → Cpu
  | filler :: _ => around.execute cpu filler
  | [] => cpu

/-! ### Both ways of reading -/

theorem execute_of_isNop {i : Instruction} (nop : i.mnemonic.isNop = true) (cpu : Cpu) :
    around.execute cpu i = cpu := by
  have same : i.operation.mnemonic = .bare .nop := of_decide_eq_true nop
  unfold execute
  cases operation : i.operation with
  | bare op => rfl
  | _ =>
    rw [operation] at same
    cases same

theorem delayedAfter_plain {i : Instruction} (noControl : i.isControl = false) (start : Cpu)
    (rest : List Instruction) :
    around.delayedAfter start (i :: rest) =
      around.delayedAfter (around.execute start i) rest := by
  simp [delayedAfter, delayedStep, noControl]

theorem delayedAfter_pair {control : Instruction} (transfers : control.isControl = true)
    (start : Cpu) (filler : Instruction) (rest : List Instruction) :
    around.delayedAfter start (control :: filler :: rest) =
      around.delayedAfter (around.resumed control.listedAddress
        (around.execute (around.execute start control) filler)) rest := by
  simp [delayedAfter, delayedStep, transfers]

theorem sequentialAfter_append (start : Cpu) (front back : List Instruction) :
    around.sequentialAfter start (front ++ back) =
      around.sequentialAfter (around.sequentialAfter start front) back :=
  List.foldl_append

/-- A transfer and its delay slot, in execution order. -/
theorem sequentialAfter_exchanged {control filler : Instruction}
    (transfers : control.isControl = true) (fits : filler.isControl = false) (start : Cpu) :
    around.sequentialAfter start (exchanged control filler) =
      around.resumed control.listedAddress
        (around.execute (around.execute start filler) control) := by
  have paired (slot : Option UInt32) (opens : Bool) (cpu : Cpu) :
      around.sequentialStep cpu { control with delaySlot := slot, opensBlock := opens } =
        around.resumed control.listedAddress (around.execute cpu control) := if_pos transfers
  have moved (address : UInt32) (cpu : Cpu) :
      around.sequentialStep cpu { filler with address } = around.execute cpu filler :=
    if_neg (by simpa [Instruction.isControl, Instruction.mnemonic] using fits)
  unfold exchanged
  split
  · next nop =>
    rw [around.execute_of_isNop nop]
    exact paired _ control.opensBlock start
  · change around.sequentialStep (around.sequentialStep start _) _ = _
    rw [moved, paired]

/-- Behind a listing that does not end in a transfer none is pending, and the machine with delay
slots is in the state to which the program leads from top to bottom. -/
theorem delayedAfter_eq {listing : List Instruction} (pairable : Pairable listing)
    (fresh : ∀ i ∈ listing, i.delaySlot = none)
    (idle : ∀ last, listing.getLast? = some last → last.isUnpaired = false) (start : Cpu) :
    (around.delayedAfter start listing).pending = none ∧
    (LinkUnusedBehindCalls listing →
      (around.delayedAfter start listing).cpu =
        around.sequentialAfter start (arranged listing)) := by
  induction pairable generalizing start with
  | nil => exact ⟨rfl, fun _ => rfl⟩
  | @plain i rest done _ ih =>
    have noControl : i.isControl = false := by
      simpa [Instruction.isUnpaired, fresh i List.mem_cons_self] using done
    have first : around.sequentialStep start i = around.execute start i := by
      simp [sequentialStep, noControl]
    obtain ⟨settled, same⟩ := ih (fun j member => fresh j (List.mem_cons_of_mem _ member))
      (fun last ends => idle last (by simp [List.getLast?_cons, ends])) (around.execute start i)
    rw [around.delayedAfter_plain noControl, arranged_plain done]
    refine ⟨settled, fun unused => ?_⟩
    change _ = around.sequentialAfter (around.sequentialStep start i) _
    rw [same unused.tail, first]
  | @pending control waits =>
    rw [idle control rfl] at waits
    cases waits
  | @pair control filler rest waits fits _ ih =>
    have transfers := isControl_of_isUnpaired waits
    rw [around.delayedAfter_pair transfers, arranged_pair waits]
    obtain ⟨settled, same⟩ := ih (fun j member => fresh j (by simp [member]))
      (fun last ends => idle last (by simp [List.getLast?_cons, ends]))
      (around.resumed control.listedAddress
        (around.execute (around.execute start control) filler))
    refine ⟨settled, fun unused => ?_⟩
    -- Both machines are at the same point again behind the pair.
    have exchange : around.execute (around.execute start control) filler =
        around.execute (around.execute start filler) control :=
      Cpu.execute_comm transfers fits unused.rel start _ _
    rw [same unused.tail.tail, around.sequentialAfter_append,
      around.sequentialAfter_exchanged transfers fits, exchange]

end Surroundings

theorem filterMap_transfer?_arranged {listing : List Instruction} (pairable : Pairable listing) :
    (arranged listing).filterMap Instruction.transfer? =
      listing.filterMap Instruction.transfer? := by
  refine pairable.filterMap_arranged ?_ ?_
  · intro i noControl
    simp [Instruction.transfer?, noControl]
  · intro i slot opens
    rfl

/-! ### Transfers in the program -/

/-- A transfer of a listing and its place in the program: `front` and `back` are around it in the
listing, and `earlier` is in front of it in the program. -/
structure TransferPlace (front : List Instruction) (control : Instruction)
    (back earlier : List Instruction) (paired : Instruction) : Prop where
  address : paired.listedAddress = control.listedAddress
  operation : paired.operation = control.operation
  /-- The same transfers come before it. -/
  transfers : earlier.filterMap Instruction.transfer? = front.filterMap Instruction.transfer?
  /-- The instruction behind it comes directly before it, whatever it does, unless it is a `nop`. -/
  hoisted : ∀ filler rest, back = filler :: rest → filler.mnemonic.isNop = false →
    earlier.getLast? = some { filler with address := control.address }
  /-- No transfer is pending when it is read. -/
  read : ∀ (around : Surroundings) (start : Cpu), (around.delayedAfter start front).pending = none
  /-- It is met in the program in the state that the delay slot leaves. -/
  met : LinkUnusedBehindCalls front → ∀ (around : Surroundings) (start : Cpu),
    around.sequentialAfter start earlier =
      around.afterSlot (around.delayedAfter start front).cpu back

/-- A transfer in execution order: it comes last, behind at most its delay slot. -/
theorem exists_exchanged_eq (control : Instruction) {filler : Instruction}
    (fits : filler.isControl = false) :
    ∃ moved paired, exchanged control filler = moved ++ [paired] ∧
      paired.listedAddress = control.listedAddress ∧ paired.operation = control.operation ∧
      moved.filterMap Instruction.transfer? = [] ∧
      (filler.mnemonic.isNop = false → moved = [{ filler with address := control.address }]) ∧
      ∀ (around : Surroundings) (cpu : Cpu),
        around.sequentialAfter cpu moved = around.execute cpu filler := by
  unfold exchanged
  split
  · next nop =>
    refine ⟨[], _, rfl, rfl, rfl, rfl, ?_, ?_⟩
    · intro useful
      rw [nop] at useful
      cases useful
    · intro around cpu
      rw [around.execute_of_isNop nop]
      rfl
  · have noControl : Instruction.isControl { filler with address := control.address } = false :=
      fits
    refine ⟨[_], _, rfl, rfl, rfl, ?_, fun _ => rfl, ?_⟩
    · simp [Instruction.transfer?, noControl]
    · intro around cpu
      exact if_neg (by simp [noControl])

/-- What stands behind a transfer that is not paired yet is no transfer. -/
theorem Pairable.isControl_of_behind {front rest : List Instruction} {control filler : Instruction}
    (pairable : Pairable (front ++ control :: filler :: rest)) (waits : control.isUnpaired = true) :
    filler.isControl = false := by
  cases clash : filler.isControl with
  | false => rfl
  | true =>
    have follows : Pairable ((front ++ [control]) ++ filler :: rest) := by simpa using pairable
    have served : control.isUnpaired = false := follows.idle_before clash (by simp)
    rw [served] at waits
    cases waits

/-- Where a transfer of a listing stands in the program, and in which state it is met there. -/
theorem Pairable.exists_transferPlace {front back : List Instruction} {control : Instruction}
    (pairable : Pairable (front ++ control :: back))
    (fresh : ∀ i ∈ front ++ control :: back, i.delaySlot = none)
    (transfers : control.isControl = true) :
    ∃ earlier paired later, arranged (front ++ control :: back) = earlier ++ paired :: later ∧
      TransferPlace front control back earlier paired := by
  have idle (last : Instruction) (ends : front.getLast? = some last) :=
    pairable.idle_before transfers ends
  have frontFresh (i : Instruction) (member : i ∈ front) : i.delaySlot = none :=
    fresh i (List.mem_append_left _ member)
  have sameTransfers := filterMap_transfer?_arranged pairable.front
  have waits : control.isUnpaired = true := by
    simp [Instruction.isUnpaired, transfers, fresh control (by simp)]
  have passed (around : Surroundings) (start : Cpu) :=
    around.delayedAfter_eq pairable.front frontFresh idle start
  have read (around : Surroundings) (start : Cpu) := (passed around start).1
  rw [arranged_append idle]
  cases back with
  | nil =>
    -- A transfer at the end of the listing stays as it is.
    refine ⟨arranged front, control, [], rfl, rfl, rfl, sameTransfers, ?_, read, ?_⟩
    · intro filler rest behind
      cases behind
    · intro unused around start
      exact ((passed around start).2 unused).symm
  | cons filler rest =>
    have fits := pairable.isControl_of_behind waits
    obtain ⟨moved, paired, pair, address, operation, silent, hoisted, effect⟩ :=
      exists_exchanged_eq control fits
    refine ⟨arranged front ++ moved, paired, arranged rest, ?_, address, operation, ?_, ?_, read,
      ?_⟩
    · rw [arranged_pair waits, pair]
      simp
    · rw [List.filterMap_append, silent, List.append_nil, sameTransfers]
    · rintro other behind same useful
      cases same
      rw [hoisted useful, List.getLast?_append]
      rfl
    · intro unused around start
      rw [around.sequentialAfter_append, effect, ← (passed around start).2 unused]
      rfl

namespace Pairing

/-- A transfer of a listing that is not paired yet stands in the program behind the same transfers.
If no delay slot of a call in front of it uses the link register, it is met there in the state that
its own delay slot leaves, and reads what it reads on the machine with delay slots unless the
instruction in its delay slot disturbs it. -/
theorem undisturbed_transfers_read_alike (listing : List Instruction)
    (fresh : ∀ i ∈ listing, i.delaySlot = none) (p : Pairing)
    (returned : ofInstructions listing = .ok p) (front back : List Instruction)
    (control : Instruction) (split : listing = front ++ control :: back)
    (transfers : control.isControl = true) :
    ∃ earlier paired later, p.program.toList = earlier ++ paired :: later ∧
      TransferPlace front control back earlier paired ∧
      (LinkUnusedBehindCalls front →
        (∀ filler rest, back = filler :: rest →
          filler.operation.disturbs control.operation = false) →
        ∀ (around : Surroundings) (start : Cpu),
          paired.operation.input (around.sequentialAfter start earlier) =
            control.operation.input (around.delayedAfter start front).cpu) := by
  subst split
  obtain ⟨pairable, program, -⟩ := ofInstructions_ok returned
  obtain ⟨earlier, paired, later, place, isPlace⟩ := pairable.exists_transferPlace fresh transfers
  refine ⟨earlier, paired, later, program.trans place, isPlace, ?_⟩
  intro unused undisturbed around start
  rw [isPlace.operation, isPlace.met unused]
  cases back with
  | nil => rfl
  | cons filler rest =>
    have waits : control.isUnpaired = true := by
      simp [Instruction.isUnpaired, transfers, fresh control (by simp)]
    have straight := pairable.isControl_of_behind waits
    exact Operation.input_execute (Operation.isCall_of_not_isControl straight)
      (undisturbed filler rest rfl) _ _

/-- A call and a loop in front of a return, each with a filled delay slot. -/
def returningListing : List Instruction :=
  [{ address := 0, listedAddress := 0, operation := .branch .jal 0x40, text := "l.jal 40" },
    { address := 4, listedAddress := 4,
      operation := .aluImmediate .addi .firstArgument .firstArgument 1, text := "l.addi r3,r3,1" },
    { address := 8, listedAddress := 8, operation := .compareImmediate .eq .firstArgument 0,
      text := "l.sfeqi r3,0" },
    { address := 12, listedAddress := 12, operation := .branch .bnf 8, text := "l.bnf 8" },
    { address := 16, listedAddress := 16,
      operation := .aluImmediate .addi .firstArgument .firstArgument (-1),
      text := "l.addi r3,r3,-1" },
    { address := 20, listedAddress := 20, operation := .registerBranch .jr .link,
      text := "l.jr r9" },
    { address := 24, listedAddress := 24,
      operation := .aluImmediate .addi .firstArgument .firstArgument 16,
      text := "l.addi r3,r3,16" }]

/-- The return goes to the address that the link register holds in front of it. -/
theorem undisturbed_transfers_read_alike_returning :
    ∃ p earlier paired later, ofInstructions returningListing = .ok p ∧
      p.program.toList = earlier ++ paired :: later ∧ paired.listedAddress = 20 ∧
      ∀ (around : Surroundings) (start : Cpu),
        paired.operation.input (around.sequentialAfter start earlier) =
          .word
            ((around.delayedAfter start (returningListing.take 5)).cpu.registers.read .link) := by
  have pairable : Pairable returningListing :=
    .pair rfl rfl (.plain rfl (.pair rfl rfl (.pair rfl rfl .nil)))
  obtain ⟨p, returned, -⟩ := ofInstructions_of_pairable pairable
  obtain ⟨earlier, paired, later, program, place, alike⟩ :=
    undisturbed_transfers_read_alike returningListing (by decide) p returned
      (returningListing.take 5) (returningListing.drop 6)
      { address := 20, listedAddress := 20, operation := .registerBranch .jr .link,
        text := "l.jr r9" } rfl rfl
  refine ⟨p, earlier, paired, later, returned, program, place.address,
    alike (by decide) ?_⟩
  intro filler rest behind
  cases behind
  rfl

/-- A return through a register that the delay slot of a call has filled from the link register. -/
def linkedListing : List Instruction :=
  [{ address := 0, listedAddress := 0, operation := .branch .jal 0x40, text := "l.jal 40" },
    { address := 4, listedAddress := 4,
      operation := .aluImmediate .ori .firstArgument .link 0, text := "l.ori r3,r9,0" },
    { address := 8, listedAddress := 8, operation := .registerBranch .jr .firstArgument,
      text := "l.jr r3" },
    { address := 12, listedAddress := 12, operation := .bare .nop, text := "l.nop" }]

/-- The delay slot of the call gets the return address, which is not there yet in the program. -/
example : ∃ (around : Surroundings) (start : Cpu),
    (Operation.registerBranch .jr .firstArgument).input
        (around.sequentialAfter start ((arranged linkedListing).take 2)) = .word 0 ∧
      (Operation.registerBranch .jr .firstArgument).input
        (around.delayedAfter start (linkedListing.take 2)).cpu = .word 8 :=
  ⟨{ supplied := fun address => (address + 8).toBitVec, resumed := fun _ cpu => cpu },
    { registers := .cleared, flag := false }, by decide, by decide⟩

/-- A branch with a comparison in its delay slot, and a return with a write to the link register. -/
def disturbedListing : List Instruction :=
  [{ address := 0, listedAddress := 0, operation := .branch .bf 0x10, text := "l.bf 10" },
    { address := 4, listedAddress := 4, operation := .compareImmediate .eq .firstArgument 0,
      text := "l.sfeqi r3,0" },
    { address := 8, listedAddress := 8, operation := .registerBranch .jr .link, text := "l.jr r9" },
    { address := 12, listedAddress := 12, operation := .aluImmediate .addi .link .link 4,
      text := "l.addi r9,r9,4" }]

/-- Both pairs are emitted like any other, and neither transfer reads in the program what it reads
on the machine with delay slots. -/
theorem disturbing_fillers_hoisted :
    (∀ i ∈ disturbedListing, i.IsFresh) ∧
    ∃ p, ofInstructions disturbedListing = .ok p ∧
      p.program.toList.map (·.operation) =
        [.compareImmediate .eq .firstArgument 0, .branch .bf 0x10,
          .aluImmediate .addi .link .link 4, .registerBranch .jr .link] ∧
      ∃ (around : Surroundings) (start : Cpu),
        (Operation.branch .bf 0x10).input
            (around.sequentialAfter start (p.program.toList.take 1)) ≠
          (Operation.branch .bf 0x10).input (around.delayedAfter start []).cpu ∧
        (Operation.registerBranch .jr .link).input
            (around.sequentialAfter start (p.program.toList.take 3)) ≠
          (Operation.registerBranch .jr .link).input
            (around.delayedAfter start (disturbedListing.take 2)).cpu := by
  have fresh : ∀ i ∈ disturbedListing, i.opensBlock = true ∧ i.delaySlot = none := by decide
  have pairable : Pairable disturbedListing := .pair rfl rfl (.pair rfl rfl .nil)
  obtain ⟨p, returned, program, -⟩ := ofInstructions_of_pairable pairable
  refine ⟨fun i member => ⟨(fresh i member).1, (fresh i member).2⟩, p, returned, ?_,
    { supplied := fun _ => 0, resumed := fun _ cpu => cpu },
    { registers := .cleared, flag := false }, ?_⟩
  · rw [program]
    decide
  · -- The comparison sets the flag, and the sum is not the return address.
    rw [program]
    decide

end Pairing

end Disassembly.Listing
