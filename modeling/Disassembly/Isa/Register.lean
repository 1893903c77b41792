import Disassembly.Text.Digit

/-!
The 32 general purpose registers, their listing names and the aliases of the calling convention.
-/

namespace Disassembly.Isa

structure Register where
  index : Fin 32
  deriving DecidableEq, Repr

namespace Register

/-- `r0`, which always reads as zero. -/
def zero : Register := ⟨0⟩

/-- `r9`, the link register. -/
def link : Register := ⟨9⟩

/-- `r3`, the register of the first argument. -/
def firstArgument : Register := ⟨3⟩

def isZero (r : Register) : Bool :=
  r = zero

/-- All registers in ascending order. -/
def all : List Register :=
  (List.finRange 32).map Register.mk

def ofNat? (index : Nat) : Option Register :=
  if bound : index < 32 then some ⟨⟨index, bound⟩⟩ else none

/-- Reads `r` and a decimal number below 32; leading zeros are allowed. -/
def parse? : List Char → Option Register
  | 'r' :: digits => (Text.readDecimal? digits).bind ofNat?
  | _ => none

def name (r : Register) : String :=
  "r" ++ Nat.repr r.index.val

/-- The name used in pseudo-code: the role that the calling convention gives the register, or else
its listing name. -/
def role (r : Register) : String :=
  match r.index.val with
  | 0 => "0"
  | 1 => "SP"
  | 2 => "FP"
  | 3 => "A1"
  | 4 => "A2"
  | 5 => "A3"
  | 6 => "A4"
  | 7 => "A5"
  | 8 => "A6"
  | 9 => "LR"
  | 11 => "RV"
  | _ => r.name

end Register

end Disassembly.Isa
