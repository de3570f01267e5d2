/-!
# Failures

Why an operation on a target page fails, and how the failure is worded.
-/

namespace UserScripts

/-- Why an operation fails. -/
inductive Failure where
  /-- The target does not load the script. -/
  | notInstalled (name target : String)
  /-- The target has no capture wrapper. -/
  | noWrapper (name target : String)
  /-- The wrapper of the target does not hold the script. -/
  | notCaptured (name target : String)
  /-- A page cannot be read or saved. -/
  | transport (message : String)
  /-- A move added the script to the new target but could not remove it from the old one. -/
  | moveIncomplete (name source destination : String) (cause : Failure)
  /-- A URL has a host that no URL can have. -/
  | malformedUrl
deriving DecidableEq, Repr

namespace Failure

/-- The wording of a failure. -/
def message : Failure → String
  | .notInstalled name target => name ++ " is not installed on " ++ target
  | .noWrapper _ target => "No capture wrapper on " ++ target
  | .notCaptured name target => name ++ " is not captured on " ++ target
  | .transport message => message
  | .moveIncomplete name source destination _ =>
    name ++ " was installed on " ++ destination ++ " but is still on " ++ source
  | .malformedUrl => "Invalid IPv6 URL"

/-- The name of the kind of a failure, which precedes its wording in reports. A malformed URL is not reported but ends the
program. -/
def kind? : Failure → Option String
  | .notInstalled _ _ => some "NotFoundError"
  | .noWrapper _ _ => some "NotFoundError"
  | .notCaptured _ _ => some "NotFoundError"
  | .transport _ => some "TransportFailure"
  | .moveIncomplete _ _ _ _ => some "MoveIncompleteError"
  | .malformedUrl => none

end Failure

end UserScripts
