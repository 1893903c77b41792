/-!
Cutting a text at a separator, and into lines.
-/

namespace Disassembly.Text

/-- One step of `split`: a separator opens a new first piece, any other character extends it. -/
def splitStep (separator c : Char) : List (List Char) → List (List Char)
  | [] => if c = separator then [[], []] else [[c]]
  | piece :: pieces => if c = separator then [] :: piece :: pieces else (c :: piece) :: pieces

/-- The pieces between separators. There is always one more piece than there are separators. -/
def split (separator : Char) (text : List Char) : List (List Char) :=
  text.foldr (splitStep separator) [[]]

/-- Drops one carriage return from the end. -/
def dropReturn (line : List Char) : List Char :=
  if line.getLast? = some '\r' then line.dropLast else line

/-- The lines of a text. Each line feed ends a line, and a carriage return directly before it
belongs to the ending. What follows the last line feed is a line unless it is empty, and keeps its
carriage return. -/
def lines (text : List Char) : List (List Char) :=
  let pieces := split '\n' text
  pieces.dropLast.map dropReturn ++ pieces.getLast?.toList.filter (!·.isEmpty)

end Disassembly.Text
