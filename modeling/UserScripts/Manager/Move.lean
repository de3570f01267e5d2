import UserScripts.Manager.Install

/-!
# Moving scripts

A move adds a script to its new target first and then removes it from the old one, so the script is never lost. If the second
step fails, the script stays on both targets and the failure says so.
-/

namespace UserScripts.Manager

/-- Moves a script to another target. -/
def move (m : Manager) (e : Entry) (destination : String) : Routine Bool :=
  if destination = e.target then pure false
  else locked e do
    let page ← m.fetch e.target
    if !(← m.isInstalled page e) then Routine.fail (.notInstalled e.displayName e.target)
    else
      let _ ← m.install (e.withTarget destination)
      match ← (m.uninstallUnlocked e).attempt with
      | .ok _ =>
        say .info ("Moved " ++ e.displayName ++ " from " ++ e.target ++ " to " ++ destination)
        return true
      | .error cause =>
        say .error ("Moved " ++ e.displayName ++ " to " ++ destination ++ " but could not remove it from " ++ e.target ++ ": " ++
          cause.message)
        Routine.fail (.moveIncomplete e.displayName e.target destination cause)

end UserScripts.Manager
