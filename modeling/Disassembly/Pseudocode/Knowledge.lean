import Disassembly.Isa.Register

/-!
What is known about the registers at a point of the program.
-/

namespace Disassembly.Pseudocode

open Isa

/-- A value for each register that is known. The slot of `r0` is never used: that register always
reads as zero. -/
structure Knowledge where
  slots : Vector (Option Int32) 32
  deriving DecidableEq, Repr

namespace Knowledge

/-- Nothing is known but `r0`. -/
def unknown : Knowledge :=
  ⟨Vector.replicate 32 none⟩

def get? (k : Knowledge) (r : Register) : Option Int32 :=
  if r.isZero then some 0 else k.slots[r.index]

def isKnown (k : Knowledge) (r : Register) : Bool :=
  (k.get? r).isSome

/-- The known value, or zero. -/
def value (k : Knowledge) (r : Register) : Int32 :=
  (k.get? r).getD 0

/-- Records what is known about a register from now on; nothing can be learned about `r0`. -/
def update (k : Knowledge) (r : Register) (value : Option Int32) : Knowledge :=
  if r.isZero then k else ⟨k.slots.set r.index value⟩

def set (k : Knowledge) (r : Register) (value : Int32) : Knowledge :=
  k.update r (some value)

def forget (k : Knowledge) (r : Register) : Knowledge :=
  k.update r none

/-- The known registers other than `r0`, ascending, with their values. -/
def known (k : Knowledge) : List (Register × Int32) :=
  Register.all.filterMap fun r => if r.isZero then none else (k.get? r).map (r, ·)

def knownCount (k : Knowledge) : Nat :=
  k.known.length

end Knowledge

end Disassembly.Pseudocode
