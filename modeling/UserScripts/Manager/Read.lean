import UserScripts.Cache
import UserScripts.Manager.Basic

/-!
# Reading targets

What the targets of a user load. A target is fetched once and then read from the cache, unless a fresh text is asked for.
-/

namespace UserScripts.Manager

open UserScripts.Text

/-- The text of a target, fetched if the cache does not hold it or if `refresh` asks for it. -/
def getText (m : Manager) (target : String) (refresh : Bool) : Routine String := do
  let known ← Routine.query (.recall target)
  if refresh || known.isNone then
    let _ ← m.fetch target
  let text ← Routine.query (.recall target)
  return text.getD ""

/-- The statements of a target outside its wrappers. -/
def listEntries (m : Manager) (target : String) (refresh : Bool) : Routine (List Entry) := do
  let text ← m.getText target refresh
  Routine.notes (Wrapper.blockNotes (lines text))
  return Cache.entriesOf target text

/-- The items in the wrappers of a target. -/
def listCaptured (m : Manager) (target : String) (refresh : Bool) : Routine (List Item) := do
  let text ← m.getText target refresh
  Routine.notes (Wrapper.decodeNotes (lines text))
  return Cache.itemsOf text

/-- The statements of some targets, or of all targets of the settings if none are given. Each target comes once, and all of them
are read before a failure counts. -/
def loadAll (m : Manager) (targets : List String) (refresh : Bool) : Routine (Keyed String (List Entry)) := do
  let targets := if targets.isEmpty then m.settings.targets else targets
  let results ← Routine.all (targets.map fun target => m.listEntries target refresh)
  return Keyed.ofPairs (targets.zip results)

/-- Whether an entry loads the page with a title in lower case. -/
def loadsPage (title : String) (e : Entry) : Bool :=
  match e.page with
  | some page => lower page == title
  | none => false

/-- The targets among some whose statements load a page. -/
def targetsAmong (page : String) (loaded : Keyed String (List Entry)) : List String :=
  (loaded.filter fun (_, entries) => entries.any (loadsPage (lower page))).map Prod.fst

/-- The targets that load a page, in the order of the settings. -/
def targetsFor (m : Manager) (page : String) : Routine (List String) := do
  let loaded ← m.loadAll [] false
  return targetsAmong page loaded

end UserScripts.Manager
