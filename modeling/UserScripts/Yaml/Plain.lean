import UserScripts.Yaml.Basic

/-!
# Plain scalars

A plain scalar consists of words. Spaces between its words belong to it, and so do line breaks if the next line goes on far
enough to the right: a single line feed is read as a space, and of several breaks the first one is dropped.
-/

namespace UserScripts.Yaml.Plain

/-- Whether a word ends before a character, given what follows it. Within flow collections more characters end a word. -/
def endsWord (flow : Bool) (c : Char) (s : List Char) : Bool :=
  isSpace c || isBreak c ||
    (c == ':' && (gapHere s || (flow && s.head?.any isFlowMark))) ||
    (flow && (c == '?' || isFlowMark c))

/-- Reads a word. -/
def word (flow : Bool) : List Char → List Char × List Char
  | [] => ([], [])
  | c :: s =>
    if endsWord flow c s then ([], c :: s)
    else
      let (rest, after) := word flow s
      (c :: rest, after)

/-- The line breaks up to the next word, spaces left aside. -/
structure Breaks where
  breaks : List Char
  /-- The column in which the rest stands. -/
  column : Nat
  /-- A line that separates documents comes. -/
  separator : Bool
  rest : List Char

/-- Reads line breaks and the spaces between them, from a column of a line. -/
def breaks (column : Nat) : List Char → Breaks
  | [] => ⟨[], column, false, []⟩
  | c :: s =>
    if c = ' ' then breaks (column + 1) s
    else if isBreak c then
      if separatorHere s then ⟨[c], 0, true, s⟩
      else
        let more := breaks 0 s
        { more with breaks := c :: more.breaks }
    else ⟨[], column, false, c :: s⟩

/-- What lies between two words. -/
structure Gap where
  /-- What the gap stands for in the scalar; nothing if the scalar ends here. -/
  text : List Char
  /-- The column of the next line that is not blank, if the gap has a line break. -/
  column : Option Nat
  rest : List Char

/-- What line breaks stand for, of which the first one is given. -/
def folded (first : Char) (more : List Char) : List Char :=
  if first ≠ '\n' then first :: more else if more.isEmpty then [' '] else more

/-- Reads the gap after a word. -/
def gap (s : List Char) : Gap :=
  match dropSpaces s with
  | [] => ⟨s, none, []⟩
  | c :: rest =>
    if isBreak c then
      if separatorHere rest then ⟨[], some 0, rest⟩
      else
        let more := breaks 0 rest
        if more.separator then ⟨[], some 0, more.rest⟩ else ⟨folded c more.breaks, some more.column, more.rest⟩
    else ⟨s.takeWhile (· == ' '), none, c :: rest⟩

/-- Whether a scalar ends with a gap: there is none, a comment follows, or the next line is not indented far enough. -/
def Gap.ends (flow : Bool) (indent : Int) (g : Gap) : Bool :=
  g.text.isEmpty || g.rest.head? == some '#' || (!flow && g.column.any fun column => (column : Int) < indent)

/-- Reads the words of a scalar after a gap. The scalar may take up lines that are indented by `indent` at least. Besides the
text and what follows it says whether a line break follows the last word. -/
def words (flow : Bool) (indent : Int) : (fuel : Nat) → Gap → List Char × List Char × Bool
  | 0, before => ([], before.rest, before.column.isSome)
  | fuel + 1, before =>
    match word flow before.rest with
    | ([], _) => ([], before.rest, before.column.isSome)
    | (first, s) =>
      let next := gap s
      if next.ends flow indent then (before.text ++ first, next.rest, next.column.isSome)
      else
        let (more, rest, broken) := words flow indent fuel next
        (before.text ++ first ++ more, rest, broken)

/-- Reads a plain scalar. -/
def read (flow : Bool) (indent : Int) (s : List Char) : List Char × List Char × Bool :=
  words flow indent (s.length + 1) ⟨[], none, s⟩

end UserScripts.Yaml.Plain
