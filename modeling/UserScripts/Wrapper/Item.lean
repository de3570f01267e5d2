import UserScripts.Value.Json
import UserScripts.Wrapper.Marker

/-!
# Captured items

An item of a wrapper holds a key, a name and a load call, each found on a line of its own. Items are read leniently: the first
line of each kind counts, an item whose strings are malformed or that has no call is left out, and a wrapper in which no item
can be read is taken for a single item as a whole.
-/

namespace UserScripts

open UserScripts.Text

/-- A script in a wrapper. -/
structure Item where
  key : String := ""
  name : String := ""
  call : String
deriving DecidableEq, Repr

namespace Item

/-- What tells items apart: the key, or the call without its blanks if there is no key. -/
def signature (i : Item) : String :=
  let key := trim i.key
  if key = "" then removeBlank i.call else key

/-- The items without those whose signature an earlier one has, and without those that have none; `seen` holds the signatures
so far. -/
def dedupeFrom (seen : List String) : List Item → List Item
  | [] => []
  | item :: rest =>
    if item.signature = "" || seen.contains item.signature then dedupeFrom seen rest
    else item :: dedupeFrom (item.signature :: seen) rest

/-- The items without those whose signature an earlier one has, and without those that have none. -/
def dedupe (items : List Item) : List Item :=
  dedupeFrom [] items

end Item

namespace Wrapper

/-- Whether a field ends with its line: after the value there is at most a comma. -/
def fieldEnds (s : List Char) : Bool :=
  match dropBlank s with
  | [] => true
  | ',' :: rest => (dropBlank rest).isEmpty
  | _ => false

/-- The notation of a string up to the quote with which its field ends. Every quote before that has a backslash right in front
of it; `escaped` says whether the last character was one. -/
def quotedValue (escaped : Bool) : List Char → Option (List Char)
  | [] => none
  | c :: s =>
    if c = '"' then
      if fieldEnds s then some ['"']
      else if escaped then (quotedValue false s).map ('"' :: ·) else none
    else (quotedValue (c = '\\') s).map (c :: ·)

/-- The notation of the value of a named field on a line. -/
def fieldToken? (name line : String) : Option (List Char) :=
  firstPlace (fun s =>
    match after? (name ++ ":").toList s with
    | some rest =>
      match dropBlank rest with
      | '"' :: body => (quotedValue false body).map ('"' :: ·)
      | _ => none
    | none => none) line.toList

/-- The text of a call after its opening parenthesis, up to its semicolon, which has to end the line. -/
def callEnd? : List Char → Option (List Char)
  | [] => none
  | c :: s =>
    if c = ')' then
      match dropBlank s with
      | ';' :: rest => if (dropBlank rest).isEmpty then some (')' :: takeBlank s ++ [';']) else (callEnd? s).map (c :: ·)
      | _ => (callEnd? s).map (c :: ·)
    else if c = '\n' then none
    else (callEnd? s).map (c :: ·)

/-- The tokens with which a load call starts. -/
def callTokens : List String :=
  [".", "loader", ".", "load", "("]

/-- The load call with which a line ends. -/
def callOf? (line : String) : Option String :=
  (firstPlace (fun s => do
    let rest ← tokens? callTokens (← after? "mw".toList s)
    let tail ← callEnd? rest
    return s.take (s.length - rest.length) ++ tail) line.toList).map String.ofList

/-- The load call with which a line ends, or nothing. -/
def extractCall (line : String) : String :=
  (callOf? line).getD ""

/-- Why an item is left out. -/
inductive Defect where
  /-- A string is malformed. -/
  | badText (token : List Char)
  /-- Nothing is called between the two lines. -/
  | noCall (range : Range)
deriving DecidableEq, Repr

/-- Reads a field from a line unless it is already known. -/
def readField (name : String) (known : String) (line : String) : Except Defect String :=
  if known = "" then
    match fieldToken? name line with
    | some token =>
      match Json.string? token with
      | some text => .ok text
      | none => .error (.badText token)
    | none => .ok known
  else .ok known

/-- Reads the fields of an item from its lines, given what earlier lines hold. -/
def readFields (item : Item) : List String → Except Defect Item
  | [] => .ok item
  | line :: rest => do
    let key ← readField "key" item.key line
    let name ← readField "name" item.name line
    readFields { key, name, call := if item.call = "" then extractCall line else item.call } rest

/-- The item within a range of lines. -/
def itemOf (lines : List String) (r : Range) : Except Defect Item := do
  let item ← readFields { call := "" } (linesOf lines r)
  if item.call = "" then throw (.noCall r) else return item

/-- The items that can be read among ranges of lines. -/
def readItems (lines : List String) (ranges : List Range) : List Item :=
  ranges.filterMap fun r => (itemOf lines r).toOption

/-- The items of a wrapper: those between item markers, or the wrapper as a whole if there are none. -/
def itemsOf (lines : List String) (r : Range) : List Item :=
  match readItems lines (itemRanges lines r) with
  | [] => readItems lines [r]
  | items => items

/-- The items of a page, in order and each once. -/
def decode (lines : List String) : List Item :=
  Item.dedupe ((blocks lines).flatMap (itemsOf lines))

end Wrapper

end UserScripts
