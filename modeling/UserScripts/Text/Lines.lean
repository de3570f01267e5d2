import UserScripts.Text.Blank
import UserScripts.Text.Scan

/-!
# Lines

A page is read and written as a list of lines. Only the line feed ends a line, so a carriage return stays part of its line,
and a page always has at least one line. Main statement: `unlines_lines`, splitting loses nothing.
-/

namespace UserScripts.Text

/-- The lines of a text. -/
def lines (text : String) : List String :=
  (splitOn '\n' text.toList).map String.ofList

/-- The text with the given lines. -/
def unlines (ls : List String) : String :=
  String.ofList (joinWith '\n' (ls.map String.toList))

/-- The lines without the blank ones at their end. -/
def dropEndBlankLines (ls : List String) : List String :=
  (ls.reverse.dropWhile isBlankLine).reverse

/-- The lines whose positions do not satisfy `drop`, in their order; the first line has position `start`. -/
def dropLinesFrom (drop : Nat → Bool) (start : Nat) : List String → List String
  | [] => []
  | line :: rest =>
    if drop start then dropLinesFrom drop (start + 1) rest else line :: dropLinesFrom drop (start + 1) rest

/-- The lines whose positions do not satisfy `drop`, in their order. -/
def dropLines (drop : Nat → Bool) (ls : List String) : List String :=
  dropLinesFrom drop 0 ls

/-- Splitting a text into lines loses nothing. -/
theorem unlines_lines (text : String) : unlines (lines text) = text := by
  simp [unlines, lines, List.map_map, Function.comp_def, joinWith_splitOn]

end UserScripts.Text
