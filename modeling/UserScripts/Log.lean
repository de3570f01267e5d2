/-!
# The log

What the program notes about its work, in the order in which it happens.
-/

namespace UserScripts

/-- How grave a note is. -/
inductive Gravity where
  | debug
  | info
  | warning
  | error
deriving DecidableEq, Repr

/-- The word for a gravity. -/
def Gravity.word : Gravity → String
  | .debug => "DEBUG"
  | .info => "INFO"
  | .warning => "WARNING"
  | .error => "ERROR"

/-- The part of the program that makes a note. -/
inductive Scribe where
  | program
  | manager
  | cache
  | wrapper
  | documentation
  | wiki
deriving DecidableEq, Repr

/-- The name under which a part of the program makes its notes. -/
def Scribe.name : Scribe → String
  | .program => "scriptmanager"
  | .manager => "scriptmanager.engine"
  | .cache => "scriptmanager.store"
  | .wrapper => "scriptmanager.capture"
  | .documentation => "scriptmanager.summary"
  | .wiki => "scriptmanager.services"

/-- A note of the log. -/
structure Note where
  scribe : Scribe
  gravity : Gravity
  text : String
deriving DecidableEq, Repr

/-- The line of a note in a log file. -/
def Note.line (n : Note) : String :=
  n.scribe.name ++ " - " ++ n.gravity.word ++ " - " ++ n.text

end UserScripts
