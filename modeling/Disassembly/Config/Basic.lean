import Disassembly.Memory.Space
import Std.Data.TreeMap

/-!
What is known about a firmware beside its bytes: the memory layout, names of hardware registers and
of code addresses, function entries, and where tables start.
-/

namespace Disassembly

namespace Config

/-- Names of addresses. -/
abbrev Names := Std.TreeMap UInt32 String

/-- Where tables start, in configuration order. -/
structure Seeds where
  jumpTables : List UInt32 := []
  stringTables : List UInt32 := []
  deriving DecidableEq, Repr

def Seeds.size (seeds : Seeds) : Nat :=
  seeds.jumpTables.length + seeds.stringTables.length

end Config

structure Annotations where
  space : Memory.AddressSpace := {}
  registers : Config.Names := {}
  labels : Config.Names := {}
  functions : List UInt32 := []
  tables : Config.Seeds := {}

end Disassembly
