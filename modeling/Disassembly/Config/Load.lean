import Disassembly.Config.Parse

/-!
Annotations from files. A directory has to hold a layout; every other file may be missing.
-/

namespace Disassembly

namespace Config

/-- The configuration files that are present. -/
structure Sources where
  layout : Option Source := none
  registers : Option Source := none
  labels : Option Source := none
  functions : Option Source := none
  tables : Option Source := none

/-- Where the configuration files of a directory are. -/
structure Paths where
  layout : String
  registers : String
  labels : String
  functions : String
  tables : String

def Paths.ofDirectory (directory : String) : Paths where
  layout := Files.join directory "layout.json"
  registers := Files.join directory "registers.json"
  labels := Files.join directory "labels.json"
  functions := Files.join directory "functions.json"
  tables := Files.join directory "tables.json"

/-- Reads a file, or takes what stands for a missing one. -/
def ifPresent {α : Type} (missing : α) (read : Source → Except Config.Fault α) :
    Option Source → Except Config.Fault α
  | none => .ok missing
  | some source => read source

/-- The file at a path, if it can be opened. -/
def open? (files : Files.View) (path : String) : Option Source :=
  match files path with
  | .ok content => some { content, path := some path }
  | .error _ => none

end Config

namespace Annotations

open Config

/-- Reads the files in order; the first one that fails is reported. -/
def parse (sources : Sources) : Except Config.Fault Annotations := do
  return {
    space := ← ifPresent {} parseLayout sources.layout
    registers := ← ifPresent {} (parseNames "registers") sources.registers
    labels := ← ifPresent {} (parseNames "labels") sources.labels
    functions := ← ifPresent [] parseFunctions sources.functions
    tables := ← ifPresent {} parseTables sources.tables }

def load (files : Files.View) (directory : String) : Except Config.Fault Annotations :=
  let paths := Paths.ofDirectory directory
  match files paths.layout with
  | .error fault => .error ⟨[.opening "layout" paths.layout], .unopened fault⟩
  | .ok content =>
    parse {
      layout := some { content, path := some paths.layout }
      registers := open? files paths.registers
      labels := open? files paths.labels
      functions := open? files paths.functions
      tables := open? files paths.tables }

end Annotations

end Disassembly
