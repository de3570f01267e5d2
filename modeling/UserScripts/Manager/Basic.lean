import UserScripts.Documentation
import UserScripts.Lock
import UserScripts.Page.Change
import UserScripts.Routine
import UserScripts.Summary
import UserScripts.Wrapper.Report

/-!
# The manager

The steps of which the operations on target pages are made. Every operation that changes a page holds the key of its script on
its target, fetches the page, works out the new lines, and saves an edit only if the text has changed. The cache drops the target
after every attempt to save.
-/

namespace UserScripts

open UserScripts.Text

/-- A manager of script statements. -/
structure Manager where
  settings : Settings
  /-- Whether the documentation of scripts is looked up. -/
  linksDocs : Bool := false
deriving DecidableEq, Repr

namespace Manager

/-- The site on which a target lives. -/
def siteOf (m : Manager) (target : String) : Site :=
  if m.settings.isGlobal target then .central else .home

/-- A note of the manager. -/
def noteOf (gravity : Gravity) (text : String) : Note :=
  ⟨.manager, gravity, text⟩

/-- Makes a note. -/
def say (gravity : Gravity) (text : String) : Routine Unit :=
  Routine.query (.note (noteOf gravity text))

/-- Reads the page of a target into the cache, and gives its lines. -/
def fetch (m : Manager) (target : String) : Routine (List String) := do
  let outcome ← Routine.query (.read (m.siteOf target) (m.settings.targetTitle target))
  let text ← Routine.ofExcept outcome
  Routine.query (.remember target text)
  return lines text

/-- Saves a change of a target. The cache drops the target whether that succeeds or not. -/
def submit (m : Manager) (target summary : String) (change : Change) : Routine Unit := do
  let title := m.settings.targetTitle target
  let outcome ← Routine.query (.save (m.siteOf target) { title, summary, change })
  Routine.query (.forget (some target))
  Routine.ofExcept outcome
  say .info ("Edited " ++ title ++ ": " ++ summary)

/-- Saves new lines of a target if they differ from the old ones, and says whether they do. -/
def commit (m : Manager) (target summary : String) (old new : List String) : Routine Bool := do
  if unlines old = unlines new then
    say .debug ("No changes on " ++ m.settings.targetTitle target)
    return false
  else
    m.submit target summary (.replace (unlines new))
    return true

/-- The key that an operation on a script of a target holds. -/
def lockKey (target name : String) : String :=
  target ++ ":" ++ name

/-- Carries out a routine while it holds a key. -/
def holding (key : String) (r : Routine α) : Routine α := do
  Routine.query (.acquire key)
  let outcome ← r.attempt
  Routine.query (.release key)
  Routine.ofExcept outcome

/-- Carries out a routine while it holds the key of an entry. -/
def locked (e : Entry) (r : Routine α) : Routine α :=
  holding (lockKey e.target e.displayName) r

/-- A note about the documentation of a script. -/
def docNote (gravity : Gravity) (text : String) : Note :=
  ⟨.documentation, gravity, text⟩

/-- The link title that the source of a script names. A source that cannot be had names none. -/
def documentation? (m : Manager) (e : Entry) : Routine (Option String) :=
  match Documentation.lookup? e m.settings with
  | none => pure none
  | some (host, page) => do
    match ← Routine.query (.lookup host page) with
    | .error reason =>
      Routine.query (.note (docNote .warning
        ("Failed to resolve documentation link for " ++ page ++ " on " ++ host ++ ": " ++ reason)))
      return none
    | .ok text =>
      match Documentation.reference? (Documentation.header m.settings.docScanLimit text) with
      | none => return none
      | some reference =>
        let title ← Routine.ofExcept (Failure.ofUrl (Documentation.title? reference))
        Routine.query (.note (docNote .debug
          ("Documentation link for " ++ page ++ ": " ++ reference ++ " -> " ++ title.getD "None")))
        return title

/-- The entry with the link title of its documentation, which is looked up unless the entry has one. -/
def annotate (m : Manager) (e : Entry) : Routine Entry :=
  if !m.linksDocs || (given e.docLink).isSome then pure e
  else do
    match given (← m.documentation? e) with
    | some title => return e.withDocLink title
    | none => return e

/-- What is noted when the lines that load a script are looked for. -/
def matchNotes (m : Manager) (lines : List String) (e : Entry) (skip : Nat → Bool) : List Note :=
  match Page.statementLines lines e m.settings skip with
  | _ :: _ => []
  | [] =>
    match Page.titleLines lines e skip with
    | [] => []
    | found =>
      [noteOf .debug ("Matched " ++ toString found.length ++ " unrecognized line(s) for " ++ e.displayName ++ " by title")]

/-- What is noted when a page is searched for a script, in its lines and in its wrappers. -/
def searchNotes (m : Manager) (lines : List String) (e : Entry) : List Note :=
  let anywhere := fun _ => false
  m.matchNotes lines e anywhere ++
    if (Page.plainLines lines e m.settings anywhere).isEmpty then Wrapper.decodeNotes lines else []

/-- Whether lines load a script, by a statement or in a wrapper. -/
def isInstalled (m : Manager) (lines : List String) (e : Entry) : Routine Bool := do
  Routine.notes (m.searchNotes lines e)
  Routine.ofExcept (Failure.ofUrl (Page.isInstalled lines e m.settings))

end Manager

end UserScripts
