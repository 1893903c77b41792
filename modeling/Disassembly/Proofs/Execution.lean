import Disassembly.Pseudocode.Explain
import Mathlib.Data.BitVec

/-!
# Known values are real values

Explaining follows what is known about registers; a machine of 32 words says what they hold. The
machine executes straight-line code: loads and reads of special purpose registers write whatever word
they are given, and control transfers have no successor in a straight line. `Agrees` relates the two.
It is preserved by every operation, whatever its operands share, and so by every run.
-/

namespace Disassembly.Isa

/-- The contents of the registers; `r0` holds zero. -/
structure RegisterFile where
  read : Register → BitVec 32
  read_zero : read .zero = 0

namespace RegisterFile

/-- Writes to `r0` have no effect. -/
def write (file : RegisterFile) (d : Register) (word : BitVec 32) : RegisterFile where
  read r := if r = d ∧ r ≠ .zero then word else file.read r
  read_zero := by simp [file.read_zero]

/-- All registers hold zero. -/
def cleared : RegisterFile where
  read _ := 0
  read_zero := rfl

theorem write_read_self {d : Register} (nonzero : d ≠ .zero) (file : RegisterFile)
    (word : BitVec 32) : (file.write d word).read d = word := by
  simp [write, nonzero]

theorem write_read_of_ne {r d : Register} (other : r ≠ d) (file : RegisterFile)
    (word : BitVec 32) : (file.write d word).read r = file.read r := by
  simp [write, other]

theorem write_comm {d e : Register} (apart : d ≠ e) (file : RegisterFile) (x y : BitVec 32) :
    (file.write d x).write e y = (file.write e y).write d x := by
  simp only [write, mk.injEq]
  funext r
  by_cases first : r = d
  · have second : r ≠ e := by
      rintro rfl
      exact apart first.symm
    simp [second]
  · simp [first]

end RegisterFile

/-- What an operation on two words computes. Sums, differences and products wrap around; shift
amounts count modulo 32. -/
def compute (op : Alu) (x y : BitVec 32) : BitVec 32 :=
  match op with
  | .add => x + y
  | .sub => x - y
  | .mul => x * y
  | .and => x &&& y
  | .or => x ||| y
  | .xor => x ^^^ y
  | .sll => x <<< (y.toNat % 32)
  | .srl => x >>> (y.toNat % 32)
  | .sra => x.sshiftRight (y.toNat % 32)
  | .ror => x.rotateRight (y.toNat % 32)

/-- What an operation on a word and an immediate computes. -/
def computeImmediate (op : AluImmediate) (x i : BitVec 32) : BitVec 32 :=
  match op with
  | .addi => x + i
  | .andi => x &&& i
  | .ori => x ||| i
  | .xori => x ^^^ i
  | .slli => x <<< (i.toNat % 32)
  | .srli => x >>> (i.toNat % 32)
  | .srai => x.sshiftRight (i.toNat % 32)
  | .rori => x.rotateRight (i.toNat % 32)

/-- The registers after an operation that is not a control transfer. `loaded` is the word that a load
or a special purpose register supplies. -/
def execute? (file : RegisterFile) (loaded : BitVec 32) : Operation → Option RegisterFile
  | .alu op d a b => some (file.write d (compute op (file.read a) (file.read b)))
  | .aluImmediate op d a i => some (file.write d (computeImmediate op (file.read a) i.toBitVec))
  | .movhi d k => some (file.write d (k.toBitVec * 0x10000))
  | .load _ d _ _ => some (file.write d loaded)
  | .mfspr d _ _ => some (file.write d loaded)
  | .store .. | .mtspr .. | .compare .. | .compareImmediate .. | .bare _ => some file
  | .branch .. | .registerBranch .. => none

/-- The registers after straight-line code, each operation with the word it is supplied. -/
def runStraight? (file : RegisterFile) : List (Operation × BitVec 32) → Option RegisterFile
  | [] => some file
  | (operation, loaded) :: rest =>
    (execute? file loaded operation).bind fun file => runStraight? file rest

end Disassembly.Isa

namespace Disassembly.Pseudocode

open Isa

/-- What is known after straight-line code. -/
def knownAfter (k : Knowledge) (operations : List Operation) : Knowledge :=
  operations.foldl (fun k operation => (explain k operation).2) k

/-- Every register that is known holds the known value. -/
def Agrees (k : Knowledge) (file : RegisterFile) : Prop :=
  ∀ r value, k.get? r = some value → file.read r = value.toBitVec

/-! ### Knowledge, register by register -/

namespace Knowledge

@[simp] theorem get?_zero (k : Knowledge) : k.get? .zero = some 0 := by
  simp [get?, Register.isZero]

theorem get?_update_self {d : Register} (nonzero : d ≠ .zero) (k : Knowledge)
    (value : Option Int32) : (k.update d value).get? d = value := by
  simp [get?, update, Register.isZero, nonzero]

theorem get?_update_of_ne {r d : Register} (other : r ≠ d) (k : Knowledge)
    (value : Option Int32) : (k.update d value).get? r = k.get? r := by
  have apart : (d.index : Nat) ≠ (r.index : Nat) := by
    intro same
    apply other
    cases r
    cases d
    simp only [Register.mk.injEq]
    exact (Fin.ext same).symm
  unfold get? update
  split
  · rfl
  · split
    · rfl
    · exact Vector.getElem_set_ne d.index.isLt r.index.isLt apart

end Knowledge

theorem read_zero_of_known {k : Knowledge} {value : Int32} (known : k.get? .zero = some value)
    (file : RegisterFile) : file.read .zero = value.toBitVec := by
  rw [Knowledge.get?_zero, Option.some.injEq] at known
  rw [RegisterFile.read_zero, ← known]
  rfl

theorem agrees_unknown (file : RegisterFile) : Agrees .unknown file := by
  intro r value known
  by_cases zero : r = .zero
  · subst zero
    exact read_zero_of_known known file
  · simp [Knowledge.get?, Knowledge.unknown, Register.isZero, zero] at known

/-- Recording a value that is written, or that nothing is known about it, keeps agreement. -/
theorem Agrees.update {k : Knowledge} {file : RegisterFile} (agrees : Agrees k file) (d : Register)
    {result : Option Int32} {word : BitVec 32}
    (written : ∀ value, result = some value → word = value.toBitVec) :
    Agrees (k.update d result) (file.write d word) := by
  intro r value known
  by_cases same : r = d
  · subst same
    by_cases zero : r = .zero
    · -- Neither the write nor the record takes effect.
      subst zero
      exact read_zero_of_known known _
    · rw [Knowledge.get?_update_self zero] at known
      rw [RegisterFile.write_read_self zero]
      exact written value known
  · rw [Knowledge.get?_update_of_ne same] at known
    rw [RegisterFile.write_read_of_ne same]
    exact agrees r value known

/-! ### Folding -/

/-- The signed remainder that shifts of signed words take is the unsigned one: 32 divides the size
of a word, so the sign does not matter. -/
theorem toNat_smod_word (y : BitVec 32) : (y.smod 32).toNat = y.toNat % 32 := by
  have signed : (y.smod 32#32).toInt = y.toInt.fmod (32#32).toInt := BitVec.toInt_smod
  have width : (32#32).toInt = 32 := by decide
  rw [width, Int.fmod_eq_emod_of_nonneg _ (by decide), BitVec.toInt_eq_toNat_cond,
    BitVec.toInt_eq_toNat_cond y] at signed
  have bound := y.isLt
  have bound' := (y.smod 32#32).isLt
  change (y.smod 32#32).toNat = _
  split at signed <;> split at signed <;> omega

theorem fold?_sound {op : Alu} {x y value : Int32} (folded : fold? op x y = some value) :
    compute op x.toBitVec y.toBitVec = value.toBitVec := by
  cases op <;> simp only [fold?, Option.some.injEq, reduceCtorEq] at folded <;> subst folded
  case add | sub | and | xor | or => simp [compute]
  case sll =>
    rw [Int32.toBitVec_shiftLeft, BitVec.shiftLeft_eq', toNat_smod_word]
    rfl
  case sra =>
    rw [Int32.toBitVec_shiftRight, BitVec.sshiftRight_eq', toNat_smod_word]
    rfl

theorem computeImmediate_eq (op : AluImmediate) (x i : BitVec 32) :
    computeImmediate op x i = compute (aluOf op) x i := by
  cases op <;> rfl

theorem Agrees.folded? {k : Knowledge} {file : RegisterFile} (agrees : Agrees k file) {op : Alu}
    {a b : Register} {value : Int32} (folded : folded? k op a b = some value) :
    compute op (file.read a) (file.read b) = value.toBitVec := by
  simp only [Pseudocode.folded?, Option.bind_eq_bind, Option.bind_eq_some_iff] at folded
  obtain ⟨x, left, y, right, folded⟩ := folded
  rw [agrees a x left, agrees b y right]
  exact fold?_sound folded

theorem Agrees.foldedImmediate? {k : Knowledge} {file : RegisterFile} (agrees : Agrees k file)
    {op : AluImmediate} {a : Register} {i value : Int32}
    (folded : foldedImmediate? k op a i = some value) :
    computeImmediate op (file.read a) i.toBitVec = value.toBitVec := by
  simp only [Pseudocode.foldedImmediate?, Option.bind_eq_bind, Option.bind_eq_some_iff] at folded
  obtain ⟨x, left, folded⟩ := folded
  rw [computeImmediate_eq, agrees a x left]
  exact fold?_sound folded

theorem toBitVec_shiftLeft_half (k : Int32) : (k <<< 16).toBitVec = k.toBitVec * 0x10000 := by
  rw [Int32.toBitVec_shiftLeft, BitVec.shiftLeft_eq', toNat_smod_word,
    BitVec.shiftLeft_eq_mul_twoPow]
  rfl

/-! ### One operation -/

/-- `after` is what an operation that is reached with `k` may leave: it agrees with what is known
then, and a value that is shown is there. -/
structure Sound (k : Knowledge) (operation : Operation) (after : RegisterFile) : Prop where
  agrees : Agrees (explain k operation).2 after
  constant : ∀ d value, (explain k operation).1 = .constant d value →
    after.read d = value.toBitVec

theorem Agrees.read_value {k : Knowledge} {file : RegisterFile} (agrees : Agrees k file)
    {d : Register} (known : (k.get? d).isSome) : file.read d = (k.value d).toBitVec := by
  obtain ⟨value, same⟩ := Option.isSome_iff_exists.mp known
  rw [agrees d value same, Knowledge.value, same]
  rfl

theorem Knowledge.isSome_get?_set (k : Knowledge) (d : Register) (value : Int32) :
    ((k.set d value).get? d).isSome := by
  by_cases zero : d = .zero
  · subst zero
    simp
  · simp [Knowledge.set, Knowledge.get?_update_self zero]

/-- The statement of `assign` shows what `d` holds afterwards, which for `r0` is not the result. -/
theorem Agrees.assign {k : Knowledge} {file : RegisterFile} (agrees : Agrees k file)
    (d : Register) {result : Option Int32} {word : BitVec 32} (source : Expression)
    (written : ∀ value, result = some value → word = value.toBitVec) :
    Agrees (assign k d result source).2 (file.write d word) ∧
      ∀ e value, (assign k d result source).1 = .constant e value →
        (file.write d word).read e = value.toBitVec := by
  have updated : Agrees (k.update d result) (file.write d word) := agrees.update d written
  cases result with
  | none =>
    refine ⟨updated, ?_⟩
    intro e value shown
    cases shown
  | some result =>
    refine ⟨updated, ?_⟩
    intro e value shown
    cases shown
    -- What is shown is read back from the record, so it is zero for `r0` whatever the result is.
    exact updated.read_value (k.isSome_get?_set d result)

theorem Agrees.explain {k : Knowledge} {file : RegisterFile} (agrees : Agrees k file)
    {operation : Operation} (straight : operation.mnemonic.isControl = false)
    (loaded : BitVec 32) :
    ∃ after, execute? file loaded operation = some after ∧ Sound k operation after := by
  cases operation with
  | alu op d a b =>
    obtain ⟨next, shown⟩ := agrees.assign d (symbolic op a b) fun value => agrees.folded?
    exact ⟨_, rfl, next, shown⟩
  | aluImmediate op d a i =>
    obtain ⟨next, shown⟩ :=
      agrees.assign d (symbolicImmediate op a i) fun value => agrees.foldedImmediate?
    exact ⟨_, rfl, next, shown⟩
  | movhi d high =>
    refine ⟨_, rfl, agrees.update d ?_, nofun⟩
    intro value known
    rw [← Option.some.inj known]
    exact (toBitVec_shiftLeft_half high).symm
  -- The word that is written is arbitrary, so nothing may be known about `d` any more.
  | load op d a i => exact ⟨_, rfl, agrees.update d nofun, nofun⟩
  | mfspr d a selector => exact ⟨_, rfl, agrees.update d nofun, nofun⟩
  -- No register is written.
  | store op d a i => exact ⟨_, rfl, agrees, nofun⟩
  | mtspr a b selector => exact ⟨_, rfl, agrees, nofun⟩
  | compare relation a b => exact ⟨_, rfl, agrees, nofun⟩
  | compareImmediate relation a i => exact ⟨_, rfl, agrees, nofun⟩
  | bare op => exact ⟨_, rfl, agrees, nofun⟩
  | branch op target => cases op <;> cases straight
  | registerBranch op d => cases op <;> cases straight

/-! ### Straight-line code -/

theorem Agrees.run {k : Knowledge} {file : RegisterFile} (agrees : Agrees k file)
    (steps : List (Operation × BitVec 32))
    (straight : ∀ step ∈ steps, step.1.mnemonic.isControl = false) :
    ∃ after, runStraight? file steps = some after ∧
      Agrees (knownAfter k (steps.map Prod.fst)) after := by
  induction steps generalizing k file with
  | nil => exact ⟨file, rfl, agrees⟩
  | cons step rest ih =>
    obtain ⟨operation, loaded⟩ := step
    obtain ⟨next, executed, sound⟩ := agrees.explain (straight _ List.mem_cons_self) loaded
    obtain ⟨after, ran, still⟩ :=
      ih sound.agrees fun step member => straight step (List.mem_cons_of_mem _ member)
    refine ⟨after, ?_, still⟩
    rw [runStraight?, executed]
    exact ran

/-- Straight-line code that starts in registers that agree with what is known executes to its end.
Before and after each of its operations the registers agree with what is known there, and where a
statement shows the value of a register, the register holds it after the operation. -/
theorem explain_agrees_with_execution (symbols : Symbols) (k : Knowledge) (file : RegisterFile)
    (steps : List (Operation × BitVec 32)) (agrees : Agrees k file)
    (straight : ∀ step ∈ steps, step.1.mnemonic.isControl = false) :
    ∀ before operation loaded rest, steps = before ++ (operation, loaded) :: rest →
      ∃ reached after,
        runStraight? file before = some reached ∧
        execute? reached loaded operation = some after ∧
        Agrees (knownAfter k (before.map Prod.fst)) reached ∧
        Agrees (explain (knownAfter k (before.map Prod.fst)) operation).2 after ∧
        ∀ d value,
          (explain (knownAfter k (before.map Prod.fst)) operation).1 = .constant d value →
            (explain (knownAfter k (before.map Prod.fst)) operation).1.text symbols =
              d.role ++ " = " ++ symbols.valueText value ∧
            after.read d = value.toBitVec := by
  rintro before operation loaded rest rfl
  obtain ⟨reached, ran, known⟩ := agrees.run before fun step member =>
    straight step (List.mem_append_left _ member)
  obtain ⟨after, executed, sound⟩ :=
    known.explain (straight (operation, loaded) (by simp)) loaded
  refine ⟨reached, after, ran, executed, known, sound.agrees, ?_⟩
  intro d value shown
  refine ⟨?_, sound.constant d value shown⟩
  rw [shown]
  rfl

/-- A sum that leaves the signed range, with a load in between. -/
theorem explain_agrees_with_execution_wrapping :
    ∃ reached after,
      runStraight? .cleared [(.movhi ⟨3⟩ 0x7fff, 0), (.aluImmediate .ori ⟨3⟩ ⟨3⟩ 0xffff, 0),
        (.load .lwz ⟨4⟩ ⟨3⟩ 0, 0xdead)] = some reached ∧
      execute? reached 0 (.aluImmediate .addi ⟨3⟩ ⟨3⟩ 1) = some after ∧
      after.read ⟨3⟩ = 0x80000000 := by
  obtain ⟨reached, after, ran, executed, -, -, shown⟩ :=
    explain_agrees_with_execution
      { annotations := {}, image := {}, functions := {}, jumpTables := {}, stringTables := {} }
      .unknown .cleared
      [(.movhi ⟨3⟩ 0x7fff, 0), (.aluImmediate .ori ⟨3⟩ ⟨3⟩ 0xffff, 0),
        (.load .lwz ⟨4⟩ ⟨3⟩ 0, 0xdead), (.aluImmediate .addi ⟨3⟩ ⟨3⟩ 1, 0)]
      (agrees_unknown _) (by decide)
      [(.movhi ⟨3⟩ 0x7fff, 0), (.aluImmediate .ori ⟨3⟩ ⟨3⟩ 0xffff, 0),
        (.load .lwz ⟨4⟩ ⟨3⟩ 0, 0xdead)]
      (.aluImmediate .addi ⟨3⟩ ⟨3⟩ 1) 0 [] rfl
  exact ⟨reached, after, ran, executed, (shown ⟨3⟩ (-0x80000000) (by decide)).2⟩

end Disassembly.Pseudocode
