import UserScripts.Manager.Basic

/-!
# Installing scripts

Adding a script to a target, removing it, and switching it off and on.
-/

namespace UserScripts.Manager

open UserScripts.Text

/-- Adds the statement of a script to a target that does not load it, and says whether it did. -/
def installUnlocked (m : Manager) (e : Entry) : Routine Bool := do
  let page ← m.fetch e.target
  if ← m.isInstalled page e then
    say .debug (e.displayName ++ " is already installed on " ++ e.target)
    return false
  else
    let e ← m.annotate e
    let statement ← Routine.ofExcept (Failure.ofUrl (e.statement m.settings))
    m.submit e.target (Summary.ofEntry e "summary-install" m.settings) (Page.install page statement)
    return true

/-- Adds the statement of a script to a target that does not load it, and says whether it did. -/
def install (m : Manager) (e : Entry) : Routine Bool :=
  locked e (m.installUnlocked e)

/-- What is noted when a page is searched for what loads a script, once for its lines and once for its wrappers. -/
def removalNotes (m : Manager) (page : List String) (e : Entry) : List Note :=
  Wrapper.blockNotes page ++ m.matchNotes page e (Wrapper.inside (Wrapper.blocks page)) ++ Wrapper.decodeNotes page

/-- Removes every line and every item that loads a script. -/
def uninstallUnlocked (m : Manager) (e : Entry) : Routine Bool := do
  let page ← m.fetch e.target
  Routine.notes (m.removalNotes page e)
  let removal ← Routine.ofExcept (Page.removal page e m.settings)
  if removal.items.isSome then
    Routine.notes (Wrapper.blockNotes page ++ Wrapper.blockNotes page)
  m.commit e.target (Summary.ofEntry e "summary-uninstall" m.settings) page (removal.apply page m.settings.fallbackDelay)

/-- Removes every line and every item that loads a script. -/
def uninstall (m : Manager) (e : Entry) : Routine Bool :=
  locked e (m.uninstallUnlocked e)

/-- The name of the summary for switching a script off or on. -/
def switchKey (disabled : Bool) : String :=
  if disabled then "summary-disable" else "summary-enable"

/-- Switches every line that loads a script off or on, and says whether that changed anything. -/
def setDisabled (m : Manager) (e : Entry) (disabled : Bool) : Routine Bool :=
  locked e do
    let page ← m.fetch e.target
    Routine.notes (Wrapper.blockNotes page ++ m.matchNotes page e (Wrapper.inside (Wrapper.blocks page)))
    let new ← Routine.ofExcept (Page.setDisabled page e disabled m.settings)
    m.commit e.target (Summary.ofEntry e (switchKey disabled) m.settings) page new

end UserScripts.Manager
