import UserScripts.Yaml.Block
import UserScripts.Yaml.Plain
import UserScripts.Yaml.Property
import UserScripts.Yaml.Quoted

/-!
# Tokens

A text as a list of tokens. Block collections have no brackets of their own, so tokens are added where the indentation opens
and closes them. That a scalar or a flow collection is a key shows only at the colon after it, so the places of possible keys
are kept until the colon comes, the line ends, or too much text lies between. A text can go wrong after tokens that were
right; those are given together with what is wrong, except those of which it is still open whether they are part of a key.
-/

namespace UserScripts.Yaml

open Property (TagName Directive)

/-- A token. -/
inductive Token where
  | directive (directive : Directive)
  | documentStart
  | documentEnd
  | textEnd
  | blockList
  | blockMap
  | blockEnd
  | listOpen
  | listClose
  | mapOpen
  | mapClose
  | comma
  | dash
  | key
  | value
  | alias (name : String)
  | anchor (name : String)
  | tag (tag : TagName)
  | scalar (text : String) (plain : Bool)
deriving DecidableEq, Repr

/-- A place in a text. -/
structure Cursor where
  rest : List Char
  /-- How many characters come before. -/
  index : Nat := 0
  line : Nat := 0
  column : Nat := 0

namespace Cursor

/-- The place after a character. A byte order mark takes up no column. -/
def past (c : Char) (p : Cursor) : Cursor :=
  let p := { p with rest := p.rest.tail, index := p.index + 1 }
  if isBreak c then { p with line := p.line + 1, column := 0 }
  else if c = '\uFEFF' then p
  else { p with column := p.column + 1 }

/-- The place some characters further on. -/
def skip (n : Nat) (p : Cursor) : Cursor :=
  (p.rest.take n).foldl (fun p c => p.past c) p

/-- The place where `rest`, an end of the text, starts. -/
def upTo (rest : List Char) (p : Cursor) : Cursor :=
  p.skip (p.rest.length - rest.length)

end Cursor

/-- A place at which a key may have started. -/
structure PossibleKey where
  /-- How many flow collections are open around it. -/
  depth : Nat
  /-- How many tokens come before it. -/
  number : Nat
  /-- Whether nothing but a key may stand there. -/
  required : Bool
  index : Nat
  line : Nat
  column : Nat

/-- The most characters between the start of a key and its colon. -/
def longestKey : Nat := 1024

/-- Whether the place of a possible key is too far away. -/
def PossibleKey.isStale (k : PossibleKey) (p : Cursor) : Bool :=
  k.line != p.line || longestKey < p.index - k.index

/-- A text of which a part has been divided into tokens. -/
structure Lexer where
  place : Cursor
  /-- How many flow collections are open. -/
  depth : Nat := 0
  /-- The column of the innermost block collection; -1 outside of any. -/
  indent : Int := -1
  /-- The columns of the block collections around it. -/
  outer : List Int := []
  /-- Whether a key may start here. -/
  keyAllowed : Bool := true
  keys : List PossibleKey := []
  /-- The tokens, the newest first. -/
  newest : List Token := []
  count : Nat := 0
  /-- Nothing is left to be divided. -/
  isDone : Bool := false

namespace Lexer

/-- A further token. -/
def add (t : Token) (l : Lexer) : Lexer :=
  { l with newest := t :: l.newest, count := l.count + 1 }

/-- A token put in after the first `number` tokens. -/
def insert (t : Token) (number : Nat) (l : Lexer) : Lexer :=
  let later := l.count - number
  { l with newest := l.newest.take later ++ t :: l.newest.drop later, count := l.count + 1 }

/-- The place moved on to `rest`. -/
def upTo (rest : List Char) (l : Lexer) : Lexer :=
  { l with place := l.place.upTo rest }

/-- A token of some characters. -/
def take (n : Nat) (t : Token) (l : Lexer) : Lexer :=
  { l.add t with place := l.place.skip n }

/-- Possible keys given up. None of them may be required. -/
def giveUp (drops : PossibleKey → Bool) (l : Lexer) : Except Malformed Lexer :=
  if l.keys.any fun k => drops k && k.required then .error .token
  else .ok { l with keys := l.keys.filter fun k => !drops k }

/-- Possible keys that are too far away given up. -/
def giveUpStale (l : Lexer) : Except Malformed Lexer :=
  l.giveUp (·.isStale l.place)

/-- The possible key among the flow collections that are open given up. -/
def giveUpHere (l : Lexer) : Except Malformed Lexer :=
  l.giveUp (·.depth == l.depth)

/-- The place noted as a possible key, if a key may start here. -/
def noteKey (l : Lexer) : Except Malformed Lexer :=
  if l.keyAllowed then do
    let l ← l.giveUpHere
    let p := l.place
    let required := l.depth == 0 && l.indent == p.column
    return { l with keys := ⟨l.depth, l.count, required, p.index, p.line, p.column⟩ :: l.keys }
  else .ok l

/-- The block collections that are closed by a token in a column: how many they are, and what is left. -/
def closed (column : Int) : (indent : Int) → List Int → Nat × Int × List Int
  | indent, [] => (0, indent, [])
  | indent, next :: outer =>
    if column < indent then
      let (n, indent, outer) := closed column next outer
      (n + 1, indent, outer)
    else (0, indent, next :: outer)

/-- The block collections closed that a token in a column does not belong to. Within flow collections the column counts for
nothing. -/
def unwind (column : Int) (l : Lexer) : Lexer :=
  if 0 < l.depth then l
  else
    let (n, indent, outer) := closed column l.indent l.outer
    { l with indent, outer, newest := List.replicate n .blockEnd ++ l.newest, count := l.count + n }

/-- A block collection opened in a column, unless one is open there. Its token is put in after the first `number` tokens. -/
def openBlock (t : Token) (column number : Nat) (l : Lexer) : Lexer :=
  if l.depth == 0 && l.indent < column then
    { l.insert t number with indent := column, outer := l.indent :: l.outer }
  else l

/-- A block collection opened here. -/
def openHere (t : Token) (l : Lexer) : Lexer :=
  l.openBlock t l.place.column l.count

/-- What follows blanks, comments and line breaks, and whether there is a line break. -/
def gap : (fuel : Nat) → Bool → List Char → List Char × Bool
  | 0, broken, s => (s, broken)
  | fuel + 1, broken, s =>
    match dropComment (dropSpaces s) with
    | [] => ([], broken)
    | c :: s => if isBreak c then gap fuel true s else (c :: s, broken)

/-- The place of the next token. A key may start on a new line. -/
def toNext (l : Lexer) : Lexer :=
  let s := match l.place.index, l.place.rest with
    | 0, '\uFEFF' :: s => s
    | _, s => s
  let (rest, broken) := gap (s.length + 1) false s
  { l.upTo rest with keyAllowed := l.keyAllowed || (broken && l.depth == 0) }

/-- The end of the text. -/
def finish (l : Lexer) : Except Malformed Lexer := do
  let l ← (l.unwind (-1)).giveUpHere
  return { l.add .textEnd with isDone := true }

/-- A directive or a separator of documents, before which everything is closed. -/
def apart (l : Lexer) (read : Lexer → Except Malformed Lexer) : Except Malformed Lexer := do
  read { ← (l.unwind (-1)).giveUpHere with keyAllowed := false }

/-- A separator of documents. -/
def separator (t : Token) (l : Lexer) : Except Malformed Lexer :=
  l.apart fun l => .ok (l.take 3 t)

/-- A directive. -/
def directive (s : List Char) (l : Lexer) : Except Malformed Lexer :=
  l.apart fun l => do
    let (directive, rest) ← Property.directive s
    return (l.add (.directive directive)).upTo rest

/-- The start of a flow collection. -/
def openFlow (t : Token) (l : Lexer) : Except Malformed Lexer := do
  let l ← l.noteKey
  return { l.take 1 t with depth := l.depth + 1, keyAllowed := true }

/-- The end of a flow collection. After one that closes nothing there is nothing more to be read. -/
def closeFlow (t : Token) (l : Lexer) : Except Malformed Lexer := do
  let l ← l.giveUpHere
  return { l.take 1 t with depth := l.depth - 1, keyAllowed := false, isDone := l.depth == 0 }

/-- A comma. -/
def comma (l : Lexer) : Except Malformed Lexer := do
  let l ← l.giveUpHere
  return { l.take 1 .comma with keyAllowed := true }

/-- The dash of an item of a block list. -/
def dash (l : Lexer) : Except Malformed Lexer := do
  if l.depth == 0 && !l.keyAllowed then throw .token
  let l ← (l.openHere .blockList).giveUpHere
  return { l.take 1 .dash with keyAllowed := true }

/-- The question mark of a key. -/
def questionMark (l : Lexer) : Except Malformed Lexer := do
  if l.depth == 0 && !l.keyAllowed then throw .token
  let l ← (l.openHere .blockMap).giveUpHere
  return { l.take 1 .key with keyAllowed := l.depth == 0 }

/-- The colon of a value. It makes a key of what stands at the place that was noted, if there is one. -/
def colon (l : Lexer) : Except Malformed Lexer :=
  match l.keys.find? (·.depth == l.depth) with
  | some k =>
    let l := { l with keys := l.keys.filter (·.depth != l.depth), keyAllowed := false }
    .ok (((l.insert .key k.number).openBlock .blockMap k.column k.number).take 1 .value)
  | none =>
    if l.depth == 0 && !l.keyAllowed then .error .token
    else .ok { (l.openHere .blockMap).take 1 .value with keyAllowed := l.depth == 0 }

/-- A token that can be a key or stand at the start of one. -/
def part (l : Lexer) (read : Except Malformed (Token × List Char)) : Except Malformed Lexer := do
  let l ← l.noteKey
  let (t, rest) ← read
  return { (l.add t).upTo rest with keyAllowed := false }

/-- A plain scalar. -/
def plain (l : Lexer) : Except Malformed Lexer := do
  let l ← l.noteKey
  let (text, rest, broken) := Plain.read (0 < l.depth) (l.indent + 1) l.place.rest
  return { (l.add (.scalar (String.ofList text) true)).upTo rest with keyAllowed := broken }

/-- A block scalar. -/
def block (folds : Bool) (s : List Char) (l : Lexer) : Except Malformed Lexer := do
  let l ← l.giveUpHere
  let (text, rest) ← Block.read folds l.indent s
  return { (l.add (.scalar (String.ofList text) false)).upTo rest with keyAllowed := true }

/-- Whether a plain scalar starts with a character, given what follows. -/
def startsPlain (flow : Bool) (c : Char) (s : List Char) : Bool :=
  !(isSpace c || isBreak c || "-?:,[]\x7b\x7d#&*!|>'\"%@`".toList.contains c) ||
    (!gapHere s && (c == '-' || (!flow && (c == '?' || c == ':'))))

/-- A quoted scalar. -/
def quoted (read : List Char → Except Malformed (List Char × List Char)) (s : List Char) (l : Lexer) :
    Except Malformed Lexer :=
  l.part ((read s).map fun (text, rest) => (.scalar (String.ofList text) false, rest))

/-- The next token, which starts with a character that is no blank. -/
def token (c : Char) (s : List Char) (l : Lexer) : Except Malformed Lexer :=
  let flow := decide (0 < l.depth)
  if c = '%' && l.place.column == 0 then l.directive s
  else if c = '-' && l.place.column == 0 && separatorHere (c :: s) then l.separator .documentStart
  else if c = '.' && l.place.column == 0 && separatorHere (c :: s) then l.separator .documentEnd
  else if c = '[' then l.openFlow .listOpen
  else if c = '\x7b' then l.openFlow .mapOpen
  else if c = ']' then l.closeFlow .listClose
  else if c = '\x7d' then l.closeFlow .mapClose
  else if c = ',' then l.comma
  else if c = '-' && gapHere s then l.dash
  else if c = '?' && (flow || gapHere s) then l.questionMark
  else if c = ':' && (flow || gapHere s) then l.colon
  else if c = '*' then l.part ((Property.name s).map fun (name, rest) => (.alias name, rest))
  else if c = '&' then l.part ((Property.name s).map fun (name, rest) => (.anchor name, rest))
  else if c = '!' then l.part ((Property.tag s).map fun (tag, rest) => (.tag tag, rest))
  else if c = '|' && !flow then l.block false s
  else if c = '>' && !flow then l.block true s
  else if c = '\'' then l.quoted Quoted.readSingle s
  else if c = '"' then l.quoted Quoted.readDouble s
  else if startsPlain flow c s then l.plain
  else .error .token

/-- The next token read, together with the tokens that the indentation adds. -/
def step (l : Lexer) : Except Malformed Lexer := do
  let l ← l.toNext.giveUpStale
  let l := l.unwind l.place.column
  match l.place.rest with
  | [] => l.finish
  | c :: s => do
    let l ← l.token c s
    if l.isDone then return l else l.giveUpStale

/-- The tokens of which it is certain that no key token comes before them. -/
def certain (l : Lexer) : List Token :=
  (l.newest.reverse).take ((l.keys.map PossibleKey.number).foldl min l.count)

/-- Reads tokens until the text ends or goes wrong. -/
def run : (fuel : Nat) → Lexer → List Token × Option Malformed
  | 0, l => (l.certain, none)
  | fuel + 1, l =>
    match l.step with
    | .error e => (l.certain, some e)
    | .ok l => if l.isDone then (l.newest.reverse, none) else run fuel l

end Lexer

/-- The tokens of a text up to its end, or up to where it goes wrong. -/
def tokens (text : List Char) : List Token × Option Malformed :=
  Lexer.run (text.length + 2) { place := { rest := text } }

end UserScripts.Yaml
