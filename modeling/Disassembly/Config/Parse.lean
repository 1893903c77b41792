import Disassembly.Config.Address
import Disassembly.Config.Basic
import Disassembly.Json.Shape

/-!
The configuration files.

Each file is read as JSON of its shape first, and its addresses are converted after that. Lists keep
the order of the file, the members of an object do not.
-/

namespace Disassembly.Config

open Json (Reader)
open Memory

/-- A configuration file, with the path it was opened by if it has one. -/
structure Source where
  content : Files.Content
  path : Option String := none

/-- Names the file in whatever goes wrong. -/
def Source.located {α : Type} (source : Source) (result : Except Fault α) : Except Fault α :=
  match source.path with
  | none => result
  | some path => during (.reading path) result

/-- Reads the JSON of a file; `description` says in messages which one. -/
def Source.readJson {α : Type} (source : Source) (description : String) (reader : Reader α) :
    Except Fault α :=
  during (.parsing description) <|
    match source.content.read with
    | .error fault => .error ⟨[], .unreadable fault⟩
    | .ok bytes =>
      match Json.parse reader bytes.toList with
      | .error fault => .error ⟨[], .json fault⟩
      | .ok value => .ok value

/-! ### The memory layout -/

structure RangeText where
  kind : String := ""
  start : String := ""
  last : String := ""
  label : String := ""

structure MirrorText where
  start : String := ""
  size : String := ""
  canonical : String := ""

structure LayoutText where
  mirror : Option MirrorText := none
  ranges : List RangeText := []

/-- A required field that holds a string. -/
def stringField {α : Type} (name : String) (put : String → α → α) : Json.Field α where
  name
  required := true
  read := do return put (← Reader.string)

def RangeText.reader : Reader RangeText :=
  Reader.record "RangeEntry" {}
    [stringField "kind" fun text entry => { entry with kind := text },
     stringField "start" fun text entry => { entry with start := text },
     stringField "end" fun text entry => { entry with last := text },
     stringField "label" fun text entry => { entry with label := text }]

def MirrorText.reader : Reader MirrorText :=
  Reader.record "MirrorEntry" {}
    [stringField "start" fun text entry => { entry with start := text },
     stringField "size" fun text entry => { entry with size := text },
     stringField "canonical" fun text entry => { entry with canonical := text }]

def LayoutText.reader : Reader LayoutText :=
  Reader.record "LayoutEntry" {}
    [{ name := "mirror"
       required := false
       read := do
        let mirror ← Reader.optional MirrorText.reader
        return fun entry => { entry with mirror } },
     { name := "ranges"
       required := true
       read := do
        let ranges ← Reader.listOf RangeText.reader
        return fun entry => { entry with ranges } }]

/-- A mirror must not overlap the memory it shows. -/
def MirrorText.convert (entry : MirrorText) : Except Fault Mirror := do
  let mirror : Mirror := {
    start := ← parseAddress entry.start
    size := ← parseAddress entry.size
    canonical := ← parseAddress entry.canonical }
  if mirror.overlaps then throw ⟨[], .overlappingMirror mirror⟩
  return mirror

/-- A range must not end before it starts. -/
def RangeText.convert (entry : RangeText) : Except Fault Range := do
  let some kind := RangeKind.ofName? entry.kind
    | throw ⟨[], .unknownKind entry.kind entry.label⟩
  let start ← parseAddress entry.start
  let last ← parseAddress entry.last
  if last < start then throw ⟨[], .reversedRange entry.label start last⟩
  return { kind, start, last, label := entry.label }

/-- The mirror is converted before the ranges. -/
def LayoutText.convert (entry : LayoutText) : Except Fault AddressSpace := do
  let mirror ← entry.mirror.mapM MirrorText.convert
  let ranges ← entry.ranges.mapM RangeText.convert
  return { ranges, mirror }

def parseLayout (source : Source) : Except Fault AddressSpace :=
  source.located do
    (← source.readJson "layout" LayoutText.reader).convert

/-! ### Names

The members of an object are a map from its keys: of several with the same key the last one counts,
and the order they are written in is lost. -/

/-- The members of an object as they are visited, by ascending key. -/
def visited (object : List (String × String)) : List (String × String) :=
  (Std.TreeMap.ofList object).toList

/-- Adds an entry, in place of an earlier one for its address. -/
def Names.add (description : String) (names : Names) (entry : String × String) :
    Except Fault Names := do
  return names.insert (← during (.key description) (parseAddress entry.1)) entry.2

/-- Adds entries one after the other, so that a later entry for an address wins. -/
def Names.ofEntries (description : String) (entries : List (String × String)) :
    Except Fault Names :=
  entries.foldlM (Names.add description) {}

/-- A list of objects from addresses to names. -/
def parseNames (description : String) (source : Source) : Except Fault Names :=
  source.located do
    let objects ← source.readJson description (Reader.listOf (Reader.mapOf Reader.string))
    Names.ofEntries description (objects.map visited).flatten

/-! ### Functions and tables

An address in these lists is reported by itself, without the file. -/

def parseFunctions (source : Source) : Except Fault (List UInt32) := do
  (← source.located (source.readJson "functions" (Reader.listOf Reader.string))).mapM parseAddress

structure TablesText where
  jumpTables : List String := []
  stringTables : List String := []

def TablesText.reader : Reader TablesText :=
  Reader.record "TablesEntry" {}
    [{ name := "jump_tables"
       required := false
       read := do
        let jumpTables ← Reader.listOf Reader.string
        return fun entry => { entry with jumpTables } },
     { name := "string_tables"
       required := false
       read := do
        let stringTables ← Reader.listOf Reader.string
        return fun entry => { entry with stringTables } }]

def TablesText.convert (entry : TablesText) : Except Fault Seeds := do
  return {
    jumpTables := ← entry.jumpTables.mapM parseAddress
    stringTables := ← entry.stringTables.mapM parseAddress }

def parseTables (source : Source) : Except Fault Seeds := do
  (← source.located (source.readJson "tables" TablesText.reader)).convert

end Disassembly.Config
