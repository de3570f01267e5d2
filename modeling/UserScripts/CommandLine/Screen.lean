import UserScripts.Text.Lines

/-!
# The screen

What a run prints: lines of text and tables. Text is printed without control characters that would move the cursor, and with its
tabs spread out to the next multiple of eight columns.
-/

namespace UserScripts.CommandLine

open UserScripts.Text

/-- A piece of output. -/
inductive Output where
  /-- A text, followed by the end of its line. -/
  | text (text : String)
  /-- A table with a title. Every row has as many cells as the header. -/
  | table (title : String) (header : List String) (rows : List (List String))
deriving DecidableEq, Repr

/-- Whether a character is a control character that is not printed. -/
def isSilent (c : Char) : Bool :=
  let n := c.toNat
  n == 7 || n == 8 || n == 11 || n == 12 || n == 13

/-- A line with its tabs spread out, of which the first character stands in the given column. -/
def spreadTabs (column : Nat) : List Char → List Char
  | [] => []
  | c :: rest =>
    if c = '\t' then
      let width := 8 - column % 8
      List.replicate width ' ' ++ spreadTabs (column + width) rest
    else c :: spreadTabs (column + 1) rest

/-- The lines that a text takes on the screen. -/
def shownLines (text : String) : List String :=
  (lines text).map fun line => String.ofList (spreadTabs 0 (line.toList.filter fun c => !isSilent c))

/-- The lines of the cells of a row, side by side. A cell with fewer lines than the others is filled up with empty ones. -/
def rowLines (cells : List String) : List (List String) :=
  let columns := cells.map shownLines
  let height := (columns.map List.length).foldl max 0
  (List.range height).map fun i => columns.map fun column => (column[i]?).getD ""

/-- A text filled up with spaces. -/
def padTo (width : Nat) (text : String) : String :=
  text ++ String.ofList (List.replicate (width - text.length) ' ')

/-- Cells between the marks of a line. -/
def fence (left middle right : String) (cells : List String) : String :=
  left ++ String.ofList ((cells.map String.toList).intersperse middle.toList).flatten ++ right

/-- A line between two rows. -/
def rule (left dash middle right : String) (widths : List Nat) : String :=
  fence left middle right (widths.map fun w => String.ofList (List.replicate (w + 2) dash.toList).flatten)

/-- A row of a table. -/
def tableRow (bar : String) (widths : List Nat) (cells : List String) : String :=
  fence bar bar bar ((widths.zip cells).map fun (w, cell) => " " ++ padTo w cell ++ " ")

/-- The lines of a table. -/
def tableLines (title : String) (header : List String) (rows : List (List String)) : List String :=
  let top := rowLines header
  let body := rows.flatMap rowLines
  let widths := (List.range header.length).map fun i =>
    ((top ++ body).map fun row => ((row[i]?).getD "").length).foldl max 0
  let total := (widths.map (· + 3)).foldl (· + ·) 1
  let margin := String.ofList (List.replicate ((total - title.length) / 2) ' ')
  [margin ++ title, rule "┏" "━" "┳" "┓" widths] ++ top.map (tableRow "┃" widths) ++ [rule "┡" "━" "╇" "┩" widths] ++
    body.map (tableRow "│" widths) ++ [rule "└" "─" "┴" "┘" widths]

/-- The lines of a piece of output. -/
def Output.lines : Output → List String
  | .text t => shownLines t
  | .table title header rows => tableLines title header rows

end UserScripts.CommandLine
