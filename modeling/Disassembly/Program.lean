import Disassembly.Listing.Pairing
import Disassembly.Symbols

/-!
The program behind a listing: instructions in execution order, block starts, and who refers to
what.
-/

namespace Disassembly

open Isa Listing

/-- A reference to an address from an instruction that names it as its target. -/
structure Reference where
  isCall : Bool
  /-- Label of the instruction that refers. -/
  origin : String
  deriving DecidableEq, Repr

def Reference.text (reference : Reference) : String :=
  (if reference.isCall then "call:" else "jump:") ++ reference.origin

/-- An entry of a jump table. -/
structure TableEntry where
  table : String
  index : Nat
  deriving DecidableEq, Repr

def TableEntry.text (entry : TableEntry) : String :=
  entry.table ++ "[" ++ Nat.repr entry.index ++ "]"

/-- Lists of things that belong to addresses. -/
abbrev Index (α : Type) := Std.TreeMap UInt32 (List α)

namespace Index

/-- Adds to the end of an address's list. -/
def append {α : Type} (index : Index α) (address : UInt32) (item : α) : Index α :=
  index.insert address ((index[address]?).getD [] ++ [item])

/-- An index of pairs, in their order. -/
def ofPairs {α : Type} (pairs : List (UInt32 × α)) : Index α :=
  pairs.foldl (fun index pair => index.append pair.1 pair.2) {}

end Index

structure Program where
  instructions : List Instruction
  /-- Addresses at which control may arrive other than from the instruction before. -/
  blockStarts : Std.TreeSet UInt32
  references : Index Reference
  tableEntries : Index TableEntry
  delaySlots : Std.TreeSet UInt32

namespace Program

/-- The entries of one jump table with the canonical addresses they lead to. -/
def entriesOf (symbols : Symbols) (seed : UInt32) :
    Except NoValue (List (UInt32 × TableEntry)) := do
  let stored ← symbols.image.codeTable seed
  return stored.zipIdx.map fun (entry, index) =>
    (symbols.canonical entry, { table := symbols.label seed, index })

/-- The entries of all jump tables, by ascending address of the table. -/
def allEntries (symbols : Symbols) : Except NoValue (List (UInt32 × TableEntry)) := do
  return (← symbols.jumpTables.toList.mapM (entriesOf symbols)).flatten

/-- The canonical target of an instruction that names its target. -/
def target? (symbols : Symbols) (i : Instruction) : Option UInt32 :=
  i.target?.map symbols.canonical

/-- The reference an instruction makes to its target. -/
def reference? (symbols : Symbols) (i : Instruction) : Option (UInt32 × Reference) :=
  (target? symbols i).map fun target =>
    (target, { isCall := i.mnemonic = .branch .jal, origin := symbols.label i.address })

/-- The first instruction whose target is a delay slot. -/
def jumpToDelaySlot? (symbols : Symbols) (instructions : List Instruction)
    (delaySlots : Std.TreeSet UInt32) : Option Fault :=
  instructions.findSome? fun i =>
    match target? symbols i with
    | some target =>
      if delaySlots.contains target then some (.jumpToDelaySlot i.listedAddress target) else none
    | none => none

/-- Reconstructs the program of a listing. Jump tables are read first, then delay slots are paired,
and at last no target may be a delay slot. -/
def reconstruct (symbols : Symbols) (listing : List Instruction) : Except NoValue Program := do
  let entries ← allEntries symbols
  let references := listing.filterMap (reference? symbols)
  let paired ← (Pairing.ofInstructions listing).mapError .fault
  let instructions := paired.program.toList
  match jumpToDelaySlot? symbols instructions paired.delaySlots with
  | some fault => throw (.fault fault)
  | none =>
    return {
      instructions
      blockStarts := (symbols.functions.insertMany (entries.map Prod.fst)).insertMany
        (references.map Prod.fst)
      references := Index.ofPairs references
      tableEntries := Index.ofPairs entries
      delaySlots := paired.delaySlots }

def isBlockStart (p : Program) (address : UInt32) : Bool :=
  p.blockStarts.contains address

/-- How many entries the jump tables have in all. -/
def entryCount (p : Program) : Nat :=
  p.tableEntries.foldl (fun count _ entries => count + entries.length) 0

end Program

end Disassembly
