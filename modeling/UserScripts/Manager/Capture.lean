import UserScripts.Manager.Install

/-!
# Capturing scripts

Taking a script into the capture wrapper of its target, and out of it.
-/

namespace UserScripts.Manager

/-- Takes what loads a script into the wrapper at the end of the page. -/
def capture (m : Manager) (e : Entry) (name : Option String) : Routine Bool :=
  locked e do
    let page ← m.fetch e.target
    Routine.notes (m.removalNotes page e)
    let new ← Routine.ofExcept (Page.capture page e name m.settings)
    m.commit e.target (Summary.ofEntry e "summary-capture" m.settings) page new

/-- What is noted when the wrappers of a page are searched for a script. -/
def releaseNotes (page : List String) : List Note :=
  Wrapper.blockNotes page ++ if (Wrapper.blocks page).isEmpty then [] else Wrapper.decodeNotes page

/-- The lines that are kept of a page, with the statement of a script if none of them loads it. -/
def restore (m : Manager) (e : Entry) (kept : List String) : Routine (List String) := do
  let anywhere := fun _ => false
  Routine.notes (m.matchNotes kept e anywhere)
  if (Page.plainLines kept e m.settings anywhere).isEmpty then
    let plain ← m.annotate (e.withDisabled false)
    let statement ← Routine.ofExcept (Failure.ofUrl (plain.statement m.settings))
    return kept ++ [statement]
  else return kept

/-- Takes a script out of the wrapper and loads it with a statement again. -/
def decapture (m : Manager) (e : Entry) : Routine Bool :=
  locked e do
    let page ← m.fetch e.target
    Routine.notes (releaseNotes page)
    let release ← Routine.ofExcept (Page.release page e m.settings)
    Routine.notes (Wrapper.blockNotes page)
    let restored ← m.restore e release.kept
    m.commit e.target (Summary.ofEntry e "summary-decapture" m.settings) page
      (Wrapper.append restored release.items m.settings.fallbackDelay)

end UserScripts.Manager
