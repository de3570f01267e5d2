import UserScripts.Text.Lines
import UserScripts.Wrapper.Entry

/-!
# Scripts on a page

Which lines of a page load a script. A statement counts by what it loads. A page of another wiki is also found by its title in
load calls that are no statements, but only if no statement loads it.
-/

namespace UserScripts.Page

open UserScripts.Text

/-- The statements outside the complete wrappers, with the positions of their lines. -/
def plainEntries (lines : List String) (target : String) : List (Nat × Entry) :=
  let ranges := Wrapper.blocks lines
  (Entry.ofLines target lines).filter fun (i, _) => !Wrapper.inside ranges i

/-- The positions of the statements that load a script, apart from those that satisfy `skip`. -/
def statementLines (lines : List String) (e : Entry) (s : Settings) (skip : Nat → Bool) : List Nat :=
  ((Entry.ofLines e.target lines).filter fun (i, parsed) => !skip i && parsed.sameScript e s).map Prod.fst

/-- Whether a title in a URL ends here: a parameter, a literal, a call or the line comes to its end. -/
def titleEnds (s : List Char) : Bool :=
  atEnd s ||
    match s with
    | [] => true
    | c :: _ => c == '&' || c == '\'' || c == '"' || c == ')' || isBlank c

/-- Whether the title of a page starts here, in any case. -/
def titleHere (title s : List Char) : Bool :=
  match afterFold? title s with
  | some rest => titleEnds rest
  | none => false

/-- Whether a line names the title of a page in a URL, with its spaces as they are or as low lines. -/
def namesTitle (page line : String) : Bool :=
  let title := page.toList
  let joined := title.map fun c => if c = ' ' then '_' else c
  (firstPlace (fun s =>
    match afterFold? "title=".toList s with
    | some rest => if titleHere title rest || titleHere joined rest then some () else none
    | none => none) line.toList).isSome

/-- Whether a line holds a load call in some form. -/
def mentionsLoad (line : String) : Bool :=
  (firstPlace (after? "mw.loader.load".toList) line.toList).isSome

/-- Whether a line loads a page by its title although it is no statement. -/
def loadsTitle (page target line : String) : Bool :=
  mentionsLoad line && namesTitle page line && (Entry.ofLine? line target).isNone

/-- The positions of the lines that load a page by its title, apart from those that satisfy `skip`; the first line has position
`i`. -/
def titleLinesFrom (page target : String) (skip : Nat → Bool) (i : Nat) : List String → List Nat
  | [] => []
  | line :: rest =>
    if !skip i && loadsTitle page target line then i :: titleLinesFrom page target skip (i + 1) rest
    else titleLinesFrom page target skip (i + 1) rest

/-- The positions of the lines that load a script of another wiki by its title only. -/
def titleLines (lines : List String) (e : Entry) (skip : Nat → Bool) : List Nat :=
  match e.source with
  | .foreign _ page => titleLinesFrom page e.target skip 0 lines
  | _ => []

/-- The positions of the lines that load a script, apart from those that satisfy `skip`. -/
def plainLines (lines : List String) (e : Entry) (s : Settings) (skip : Nat → Bool) : List Nat :=
  match statementLines lines e s skip with
  | [] => titleLines lines e skip
  | found => found

/-- Whether one of the items of a list loads a script. -/
def anyLoads (e : Entry) (s : Settings) : List Item → Except Url.Malformed Bool
  | [] => .ok false
  | item :: rest => do if ← item.loads e s then return true else anyLoads e s rest

/-- Whether a page loads a script, by a line or in a wrapper. -/
def isInstalled (lines : List String) (e : Entry) (s : Settings) : Except Url.Malformed Bool :=
  if (plainLines lines e s fun _ => false).isEmpty then anyLoads e s (Wrapper.decode lines) else .ok true

/-- The items of a list that load a script, and the others. -/
def splitItems (e : Entry) (s : Settings) : List Item → Except Url.Malformed (List Item × List Item)
  | [] => .ok ([], [])
  | item :: rest => do
    let here ← item.loads e s
    let (own, others) ← splitItems e s rest
    return if here then (item :: own, others) else (own, item :: others)

end UserScripts.Page
