import UserScripts.Manager.Basic

/-!
# Normalizing targets

Every statement outside the wrappers of a target takes its canonical form, with the link to its documentation if it has one.
-/

namespace UserScripts.Manager

open UserScripts.Text

/-- The key under which a target is normalized. -/
def normalizeKey (target : String) : String :=
  lockKey target ""

/-- The canonical statements for the entries of lines. -/
def statementsOf (m : Manager) (entries : List Entry) : Except Failure (List String) :=
  entries.mapM fun e => Failure.ofUrl (e.statement m.settings)

/-- Writes every statement of a target in its canonical form, and says whether that changed anything. -/
def normalize (m : Manager) (target : String) : Routine Bool :=
  holding (normalizeKey target) do
    let page ← m.fetch target
    Routine.notes (Wrapper.blockNotes page)
    let parsed := Page.plainEntries page target
    let annotated ← Routine.all (parsed.map fun (_, e) => m.annotate e)
    let statements ← Routine.ofExcept (m.statementsOf annotated)
    let new := Page.setLines page ((parsed.map Prod.fst).zip statements)
    m.commit target (Summary.build target "summary-normalize" "" m.settings.messages m.settings) page new

/-- What became of a target in a batch. -/
inductive Status where
  | normalized
  | unchanged
  | error
deriving DecidableEq, Repr

/-- The word for a status. -/
def Status.word : Status → String
  | .normalized => "normalized"
  | .unchanged => "unchanged"
  | .error => "error"

/-- Normalizes a target and reports what became of it. Only a malformed URL ends the batch. -/
def normalizeReporting (m : Manager) (target : String) : Routine Status := do
  match ← (m.normalize target).attempt with
  | .ok true => return .normalized
  | .ok false => return .unchanged
  | .error .malformedUrl => Routine.fail .malformedUrl
  | .error failure =>
    Routine.query (.note ⟨.program, .error, "Failed to normalize " ++ target ++ ": " ++ failure.message⟩)
    return .error

/-- Normalizes targets one after the other; a failure of one of them does not touch the others. -/
def normalizeAll (m : Manager) : List String → Routine (List (String × Status))
  | [] => pure []
  | target :: rest => do
    let status ← m.normalizeReporting target
    let others ← normalizeAll m rest
    return (target, status) :: others

/-- The status of every target of a batch; of a repeated target, the last status counts. -/
def normalizeBatch (m : Manager) (targets : List String) : Routine (Keyed String Status) := do
  let results ← m.normalizeAll targets
  return Keyed.ofPairs results

end UserScripts.Manager
