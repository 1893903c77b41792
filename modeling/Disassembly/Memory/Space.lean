/-!
The address space of the firmware: labelled ranges and one mirrored window.

The window shows memory that also exists elsewhere. Every question about an address is answered for
its canonical form, the address of the same cell outside the window; only `AddressSpace.classify`
looks at an address as it stands.
-/

namespace Disassembly.Memory

inductive RangeKind where
  | vector | code | data | string | register
  deriving DecidableEq, Repr

namespace RangeKind

def all : List RangeKind :=
  [.vector, .code, .data, .string, .register]

def name : RangeKind → String
  | .vector => "vector"
  | .code => "code"
  | .data => "data"
  | .string => "string"
  | .register => "register"

def ofName? (name : String) : Option RangeKind :=
  all.find? (·.name == name)

def isExecutable : RangeKind → Bool
  | .vector | .code => true
  | _ => false

/-- Whether tables may point to memory of this kind. -/
def isPointerTarget : RangeKind → Bool
  | .data | .string => true
  | _ => false

end RangeKind

/-- The addresses from `start` to `last`, both included. -/
structure Range where
  kind : RangeKind
  start : UInt32
  last : UInt32
  label : String
  deriving DecidableEq, Repr

namespace Range

def contains (range : Range) (address : UInt32) : Bool :=
  range.start ≤ address && address ≤ range.last

def offset (range : Range) (address : UInt32) : UInt32 :=
  address - range.start

end Range

/-- `size` addresses from `start` on that show the memory at `canonical`. -/
structure Mirror where
  start : UInt32
  size : UInt32
  canonical : UInt32
  deriving DecidableEq, Repr

namespace Mirror

def contains (mirror : Mirror) (address : UInt32) : Bool :=
  mirror.start ≤ address && address - mirror.start < mirror.size

def canonicalize (mirror : Mirror) (address : UInt32) : UInt32 :=
  if mirror.contains address then address - mirror.start + mirror.canonical else address

/-- Whether the window shares an address with the memory it shows. Windows are compared without
wrapping, so one that passes the end of the address space does not continue at its start. -/
def overlaps (mirror : Mirror) : Bool :=
  mirror.canonical.toNat < mirror.start.toNat + mirror.size.toNat &&
    mirror.start.toNat < mirror.canonical.toNat + mirror.size.toNat

end Mirror

structure AddressSpace where
  ranges : List Range := []
  mirror : Option Mirror := none
  deriving DecidableEq, Repr

namespace AddressSpace

def canonical (space : AddressSpace) (address : UInt32) : UInt32 :=
  match space.mirror with
  | some mirror => mirror.canonicalize address
  | none => address

/-- The first range that contains the address as it stands. -/
def classify (space : AddressSpace) (address : UInt32) : Option Range :=
  space.ranges.find? (·.contains address)

/-- Whether the canonical address lies between the canonical bounds of a range of an accepted
kind. -/
def liesIn (space : AddressSpace) (accepts : RangeKind → Bool) (address : UInt32) : Bool :=
  space.ranges.any fun range =>
    accepts range.kind && space.canonical range.start ≤ space.canonical address &&
      space.canonical address ≤ space.canonical range.last

def isExecutable (space : AddressSpace) (address : UInt32) : Bool :=
  space.liesIn RangeKind.isExecutable address

def isPointerTarget (space : AddressSpace) (address : UInt32) : Bool :=
  space.liesIn RangeKind.isPointerTarget address

end AddressSpace

end Disassembly.Memory
