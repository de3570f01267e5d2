import UserScripts.Log
import UserScripts.Text.Quoted
import UserScripts.Wrapper.Item

/-!
# Notes on wrappers

What is noted in the log when the wrappers of a page are read: markers that no end marker closes, and items that are left out.
-/

namespace UserScripts.Wrapper

open UserScripts.Text

/-- The wording of a defect. -/
def Defect.message : Defect → String
  | .badText token => "Invalid JSON string token " ++ quoted token
  | .noCall r => "No load call in capture item at lines " ++ toString (r.1 + 1) ++ "-" ++ toString (r.2 + 1)

/-- A warning about a wrapper. -/
def warning (text : String) : Note :=
  ⟨.wrapper, .warning, text⟩

/-- The warnings about start markers that no end marker closes. -/
def strayNotes (positions : List Nat) : List Note :=
  positions.map fun i => warning ("Unterminated capture marker at line " ++ toString (i + 1) ++ ", ignoring it")

/-- What is noted when the wrappers of a page are looked for. -/
def blockNotes (lines : List String) : List Note :=
  strayNotes (strayFrom .start .stop 0 none lines)

/-- What is noted when an item is read. -/
def itemNotes (lines : List String) (r : Range) : List Note :=
  match itemOf lines r with
  | .ok _ => []
  | .error defect => [warning ("Skipping capture item: " ++ defect.message)]

/-- What is noted when the items of a wrapper are read. -/
def rangeNotes (lines : List String) (r : Range) : List Note :=
  let ranges := itemRanges lines r
  let notes := strayNotes (strayFrom .itemStart .itemStop r.1 none (linesOf lines r)) ++ ranges.flatMap (itemNotes lines)
  if (readItems lines ranges).isEmpty then
    match itemOf lines r with
    | .ok _ => notes
    | .error defect =>
      notes ++ [warning ("Skipping capture block at lines " ++ toString (r.1 + 1) ++ "-" ++ toString (r.2 + 1) ++ ": " ++
        defect.message)]
  else notes

/-- What is noted when the items of a page are read. -/
def decodeNotes (lines : List String) : List Note :=
  blockNotes lines ++ (blocks lines).flatMap (rangeNotes lines)

end UserScripts.Wrapper
