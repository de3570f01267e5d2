import UserScripts.Text.Blank
import UserScripts.Text.Scan
import UserScripts.Text.Word

/-!
# Markers

A capture wrapper is a run of lines between two marker comments, and so is every item in it. A start marker opens a run and
gives up the one that was open, an end marker closes it, and an end marker without an open run means nothing.
-/

namespace UserScripts.Wrapper

open UserScripts.Text

/-- The words of the four markers. -/
inductive Marker where
  | start
  | stop
  | itemStart
  | itemStop
deriving DecidableEq, Repr

/-- The word that makes a comment a marker. -/
def Marker.word : Marker → String
  | .start => "SM-CAPTURE-START"
  | .stop => "SM-CAPTURE-END"
  | .itemStart => "SM-CAPTURE-ITEM-START"
  | .itemStop => "SM-CAPTURE-ITEM-END"

/-- The line of a marker. -/
def Marker.line (m : Marker) : String :=
  "// " ++ m.word

/-- Whether a line is a marker: blanks, two slashes, blanks, and its word, which no word character may follow. -/
def Marker.marks (m : Marker) (line : String) : Bool :=
  match after? "//".toList (dropBlank line.toList) with
  | some rest =>
    match after? m.word.toList (dropBlank rest) with
    | some rest => wordEnds rest
    | none => false
  | none => false

/-- The first and the last position of a run of lines. -/
abbrev Range := Nat × Nat

/-- Whether a position lies in a range. -/
def Range.has (r : Range) (i : Nat) : Bool :=
  r.1 ≤ i && i ≤ r.2

/-- The complete runs between two markers among lines of which the first has position `i`, where a run may be open. -/
def rangesFrom (opens closes : Marker) (i : Nat) (isOpen : Option Nat) : List String → List Range
  | [] => []
  | line :: rest =>
    if opens.marks line then rangesFrom opens closes (i + 1) (some i) rest
    else match isOpen with
      | some first =>
        if closes.marks line then (first, i) :: rangesFrom opens closes (i + 1) none rest
        else rangesFrom opens closes (i + 1) (some first) rest
      | none => rangesFrom opens closes (i + 1) none rest

/-- The positions of the start markers that no end marker closes, among lines of which the first has position `i`. -/
def strayFrom (opens closes : Marker) (i : Nat) (isOpen : Option Nat) : List String → List Nat
  | [] => isOpen.toList
  | line :: rest =>
    if opens.marks line then isOpen.toList ++ strayFrom opens closes (i + 1) (some i) rest
    else if isOpen.isSome && closes.marks line then strayFrom opens closes (i + 1) none rest
    else strayFrom opens closes (i + 1) isOpen rest

/-- The ranges of the complete wrappers of a page. -/
def blocks (lines : List String) : List Range :=
  rangesFrom .start .stop 0 none lines

/-- Whether a position belongs to one of some ranges. -/
def inside (ranges : List Range) (i : Nat) : Bool :=
  ranges.any (Range.has · i)

/-- Whether a position belongs to a complete wrapper. -/
def covers (lines : List String) (i : Nat) : Bool :=
  inside (blocks lines) i

/-- The positions that belong to complete wrappers, in order. -/
def coveredLines (lines : List String) : List Nat :=
  (List.range lines.length).filter (inside (blocks lines))

/-- The lines of a range. -/
def linesOf (lines : List String) (r : Range) : List String :=
  (lines.drop r.1).take (r.2 + 1 - r.1)

/-- The ranges of the complete items within a range. -/
def itemRanges (lines : List String) (r : Range) : List Range :=
  rangesFrom .itemStart .itemStop r.1 none (linesOf lines r)

end UserScripts.Wrapper
