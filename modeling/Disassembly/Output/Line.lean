import Disassembly.Program

/-!
What is written: lines of the annotated listing and the marks between them.
-/

namespace Disassembly.Output

inductive Line where
  /-- An instruction: its numeric label, its pseudo-code and its listing text. -/
  | instruction (label rendering source : String)
  /-- The configured name of the address that follows. -/
  | name (label : String)
  /-- Two empty lines in front of a block. -/
  | separator
  /-- The mark of a function. -/
  | banner
  /-- Who refers to the address that follows. -/
  | references (found : List Reference)
  /-- A jump table entry that leads to the address that follows. -/
  | entry (found : TableEntry)
  deriving DecidableEq, Repr

/-- Pseudo-code is filled up with blanks to this many characters. -/
def renderingWidth : Nat := 90

def bannerWidth : Nat := 62

/-- Fills a text up with blanks on the right. -/
def padRight (width : Nat) (text : String) : String :=
  text ++ String.ofList (List.replicate (width - text.length) ' ')

/-- The texts that a line is written in, one after the other. References are written one by one. -/
def Line.pieces : Line → List String
  | .instruction label rendering source =>
    [label ++ ":   " ++ padRight renderingWidth rendering ++ " // " ++ source ++ "\n"]
  | .name label => [label ++ ":\n"]
  | .separator => ["\n\n"]
  | .banner => [String.ofList (List.replicate bannerWidth '-') ++ "\n\n\n"]
  | .references found =>
    "// xrefs from:" :: found.map (fun reference => " " ++ reference.text) ++ ["\n"]
  | .entry found => [found.text ++ ":\n"]

def Line.text (line : Line) : String :=
  String.join line.pieces

end Disassembly.Output
