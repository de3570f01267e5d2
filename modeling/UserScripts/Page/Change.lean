import UserScripts.Failure
import UserScripts.Edit
import UserScripts.Page.Match
import UserScripts.Wrapper.Place

/-!
# Changes of a page

What each operation makes of the lines of a page. Lines that load other scripts and lines that are no statements stay as they are,
and a wrapper is only ever written as a whole.
-/

namespace UserScripts

open UserScripts.Text

/-- The outcome of an operation for which a malformed URL is a failure. -/
def Failure.ofUrl (outcome : Except Url.Malformed α) : Except Failure α :=
  outcome.mapError fun _ => .malformedUrl

/-- What is taken off a page with a script. -/
structure Removal where
  /-- The positions of the lines to go. -/
  lines : List Nat
  /-- The items that are left in wrappers, if any of them go. -/
  items : Option (List Item)
deriving DecidableEq, Repr

/-- What is left of a page when a script is let out of its wrapper. -/
structure Release where
  /-- The lines outside wrappers, without the blank ones at their end. -/
  kept : List String
  /-- The items that stay captured. -/
  items : List Item
deriving DecidableEq, Repr

namespace Page

/-- The text of a page with a statement at its end, after the last line that is not blank. -/
def withStatement (lines : List String) (statement : String) : String :=
  let kept := dropEndBlankLines lines
  (if kept.isEmpty then "" else unlines kept ++ "\n") ++ statement ++ "\n"

/-- The change from one text to another: an addition to the end if the old text is empty, or if it ends with a line feed and the
new text goes on from there. -/
def extend (old new : String) : Change :=
  if old = "" then .append new
  else if old.toList.getLast? = some '\n' then
    match after? old.toList new.toList with
    | some added => .append (String.ofList added)
    | none => .replace new
  else .replace new

/-- The change that adds a statement to a page. -/
def install (lines : List String) (statement : String) : Change :=
  extend (unlines lines) (withStatement lines statement)

/-- What has to go for a script to be removed. -/
def removal (lines : List String) (e : Entry) (s : Settings) : Except Failure Removal := do
  let plain := plainLines lines e s (Wrapper.inside (Wrapper.blocks lines))
  let (own, others) ← Failure.ofUrl (splitItems e s (Wrapper.decode lines))
  if plain.isEmpty && own.isEmpty then throw (.notInstalled e.displayName e.target)
  return { lines := plain, items := if own.isEmpty then none else some others }

/-- Whether a line is commented out. -/
def isDisabled (line : String) : Bool :=
  (after? "//".toList (dropBlank line.toList)).isSome

/-- A line with two slashes before its first character that is not blank. -/
def disableLine (line : String) : String :=
  String.ofList (takeBlank line.toList ++ "//".toList ++ dropBlank line.toList)

/-- A line without the two slashes that it starts with and without one space after them. -/
def enableLine (line : String) : String :=
  match dropBlank line.toList with
  | '/' :: '/' :: ' ' :: rest => String.ofList (takeBlank line.toList ++ rest)
  | '/' :: '/' :: rest => String.ofList (takeBlank line.toList ++ rest)
  | _ => line

/-- A line switched off or on. -/
def switchLine (disabled : Bool) (line : String) : String :=
  if disabled then if isDisabled line then line else disableLine line
  else enableLine line

/-- The lines of a page with those that load a script switched off or on. -/
def setDisabled (lines : List String) (e : Entry) (disabled : Bool) (s : Settings) : Except Failure (List String) :=
  match plainLines lines e s (Wrapper.inside (Wrapper.blocks lines)) with
  | [] => .error (.notInstalled e.displayName e.target)
  | found => .ok (lines.mapIdx fun i line => if found.contains i then switchLine disabled line else line)

/-- The name under which a script is captured: a name that is asked for, else that of the item that holds it already. -/
def captureName (name : Option String) (own : List Item) : Option String :=
  match given name with
  | some name => some name
  | none => own.head?.map Item.name

/-- The lines of a page with a script taken into the wrapper, which comes to the end of the page. -/
def capture (lines : List String) (e : Entry) (name : Option String) (s : Settings) : Except Failure (List String) := do
  let ranges := Wrapper.blocks lines
  let plain := plainLines lines e s (Wrapper.inside ranges)
  let (own, others) ← Failure.ofUrl (splitItems e s (Wrapper.decode lines))
  if plain.isEmpty && own.isEmpty then throw (.notInstalled e.displayName e.target)
  let item ← Failure.ofUrl (Item.ofEntry e (captureName name own) s)
  let kept := dropLines (fun i => plain.contains i || Wrapper.inside ranges i) lines
  return Wrapper.append kept (others ++ [item]) s.fallbackDelay

/-- What is left of a page when a script is let out of its wrapper. -/
def release (lines : List String) (e : Entry) (s : Settings) : Except Failure Release := do
  let ranges := Wrapper.blocks lines
  if ranges.isEmpty then throw (.noWrapper e.displayName e.target)
  let (own, others) ← Failure.ofUrl (splitItems e s (Wrapper.decode lines))
  if own.isEmpty then throw (.notCaptured e.displayName e.target)
  return { kept := dropEndBlankLines (dropLines (Wrapper.inside ranges) lines), items := others }

/-- The lines of a page with new lines at some positions. -/
def setLines (lines : List String) (new : List (Nat × String)) : List String :=
  lines.mapIdx fun i line => (new.lookup i).getD line

end Page

/-- The lines of a page after a removal. -/
def Removal.apply (r : Removal) (lines : List String) (delay : Int) : List String :=
  match r.items with
  | none => dropLines (fun i => r.lines.contains i) lines
  | some items => Wrapper.replace lines (fun i => r.lines.contains i) items delay

end UserScripts
