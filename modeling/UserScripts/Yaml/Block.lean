import UserScripts.Yaml.Basic

/-!
# Block scalars

A block scalar holds whole lines. Its header says whether line breaks are folded, which of the breaks at its end are kept,
and how far its lines are indented; without a width, the lines up to the first one that is not blank set it.
-/

namespace UserScripts.Yaml.Block

/-- Which line breaks at the end of a scalar are kept. -/
inductive Chomp where
  /-- Only the one that ends the last line. -/
  | clip
  | keep
  | strip
deriving DecidableEq, Repr

/-- What the header of a block scalar says. -/
structure Header where
  chomp : Chomp := .clip
  /-- How far the lines are indented beyond their surroundings. -/
  width : Option Nat := none
deriving DecidableEq, Repr

/-- The sign for what is kept at the end. -/
def chomp? : Char → Option Chomp
  | '+' => some .keep
  | '-' => some .strip
  | _ => none

/-- The digit for a width, which is not zero. -/
def width? (c : Char) : Option (Except Malformed Nat) :=
  if c.isDigit then some (if c = '0' then .error .token else .ok (c.toNat - 48)) else none

/-- Reads a header: a sign and a digit in any order, each of which may be missing, and the rest of the line. -/
def header (s : List Char) : Except Malformed (Header × List Char) := do
  let (first, s) := match s with
    | c :: rest => match chomp? c with
      | some chomp => (some chomp, rest)
      | none => (none, s)
    | [] => (none, s)
  let (width, s) ← match s with
    | c :: rest => match width? c with
      | some width => width.map fun n => (some n, rest)
      | none => pure (none, s)
    | [] => pure (none, s)
  let (second, s) := match first, width, s with
    | none, some _, c :: rest => match chomp? c with
      | some chomp => (some chomp, rest)
      | none => (none, s)
    | _, _, _ => (none, s)
  if spaceOrEnd s then return ({ chomp := (first <|> second).getD .clip, width }, ← restOfLine s)
  else throw .token

/-- Lines without text and the spaces at the start of the next line. -/
structure Margin where
  breaks : List Char
  /-- The column of the rest. -/
  column : Nat
  rest : List Char

/-- Reads lines without text, and not more than `indent` spaces at the start of a line. -/
def margin (indent column : Nat) : List Char → Margin
  | [] => ⟨[], column, []⟩
  | c :: s =>
    if c = ' ' && column < indent then margin indent (column + 1) s
    else if isBreak c then
      let more := margin indent 0 s
      { more with breaks := c :: more.breaks }
    else ⟨[], column, c :: s⟩

/-- The greatest column that spaces reach at the start of the text. -/
def greatestColumn (column greatest : Nat) : List Char → Nat
  | [] => greatest
  | c :: s =>
    if c = ' ' then greatestColumn (column + 1) (max greatest (column + 1)) s
    else if isBreak c then greatestColumn 0 greatest s
    else greatest

/-- The content of a scalar: its text, and the breaks at its end. -/
structure Content where
  text : List Char
  /-- The break that ends the last line. -/
  last : List Char
  breaks : List Char
  rest : List Char

/-- What a line break between two lines stands for, given the lines without text after it. -/
def between (folds : Bool) (lineBreak : Char) (breaks : List Char) (here next : List Char) : List Char :=
  let flush := fun s : List Char => !s.head?.any isSpace
  if folds && lineBreak = '\n' && flush here && flush next then if breaks.isEmpty then [' '] else [] else [lineBreak]

/-- Reads the lines that stand in a column. -/
def content (folds : Bool) (indent : Nat) : (fuel : Nat) → Margin → Content
  | 0, before => ⟨[], [], before.breaks, before.rest⟩
  | fuel + 1, before =>
    if before.column ≠ indent || before.rest.isEmpty then ⟨[], [], before.breaks, before.rest⟩
    else
      let line := before.rest.takeWhile fun c => !isBreak c
      match before.rest.drop line.length with
      | [] => ⟨before.breaks ++ line, [], [], []⟩
      | lineBreak :: s =>
        let next := margin indent 0 s
        if next.column = indent && !next.rest.isEmpty then
          let more := content folds indent fuel next
          let gap := between folds lineBreak next.breaks before.rest next.rest
          { more with text := before.breaks ++ line ++ gap ++ more.text }
        else ⟨before.breaks ++ line, [lineBreak], next.breaks, next.rest⟩

/-- The text of a scalar with what is kept at its end. -/
def Content.chomped (c : Content) : Chomp → List Char
  | .clip => c.text ++ c.last
  | .keep => c.text ++ c.last ++ c.breaks
  | .strip => c.text

/-- Reads a block scalar after its first character, in surroundings that are indented by `outer`. -/
def read (folds : Bool) (outer : Int) (s : List Char) : Except Malformed (List Char × List Char) := do
  let (header, s) ← header s
  let least := max (outer + 1).toNat 1
  let indent := match header.width with
    | some width => least + width - 1
    | none => max least (greatestColumn 0 0 s)
  let content := content folds indent (s.length + 1) (margin indent 0 s)
  return (content.chomped header.chomp, content.rest)

end UserScripts.Yaml.Block
