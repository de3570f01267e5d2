import UserScripts.CommandLine.Archive
import UserScripts.CommandLine.Batch

/-!
# The executable

Reads the arguments, the environment, the configuration files and the archive of wikis, runs the program, prints what it has to
say, and writes the archive and the log files back.
-/

namespace UserScripts.Main

open UserScripts.CommandLine

/-- The contents of a file, if it can be read. -/
def readFile? (name : String) : IO (Option String) := do
  try
    let text ← IO.FS.readFile name
    return some text
  catch _ => return none

/-- The files at some places, as far as they can be read. -/
def readFiles (places : List Path) : IO FileTree := do
  let mut tree : FileTree := []
  for place in places do
    if let some text ← readFile? place.toText then
      tree := Keyed.put place.toText text tree
  return tree

/-- A variable of the environment, empty if it is not set. -/
def setting (name : String) : IO String := do
  return (← IO.getEnv name).getD ""

/-- The environment of a run. -/
def readEnvironment : IO Environment := do
  return {
    server := ← setting "SCRIPTMANAGER_SERVER"
    user := ← setting "SCRIPTMANAGER_USER"
    password := ← setting "SCRIPTMANAGER_PASSWORD"
    configFolder := ← IO.getEnv "SCRIPTMANAGER_CONFIG_DIR"
    dryBatch := ← setting "SCRIPTMANAGER_DRY_RUN" }

/-- The source of a script, taken from the archive. -/
def sourceIn (wikis : Keyed String (Keyed String String)) (host title : String) : Except String String :=
  match wikis.get? host with
  | some pages => .ok ((pages.get? title).getD "")
  | none => .error "unknown host"

/-- Adds a text to the end of a file. -/
def appendFile (name text : String) : IO Unit := do
  let handle ← IO.FS.Handle.mk name .append
  handle.putStr text

/-- Writes down what the log files have taken. -/
def writeLogs (w : World) : IO Unit := do
  for path in w.logs do
    appendFile path.toText ((w.files.get? path.toText).getD "")

/-- Reports how a run has ended, and gives the exit code. -/
def finish : Finish → IO UInt32
  | .exit code => return code.toUInt32
  | .usage e => do
    IO.eprintln ("Error: " ++ e.message)
    return 2
  | .noSettings e => do
    IO.eprintln ("Error: the settings cannot be read. " ++ e.message)
    return 1
  | .badSettings issues => do
    for i in issues do
      IO.eprintln ("Error: the setting " ++ ".".intercalate (i.path.map Key.toText) ++ " does not have the form it should have.")
    return 1
  | .malformedUrl => do
    IO.eprintln "Error: a URL has a host that no URL can have."
    return 1

end UserScripts.Main

open UserScripts UserScripts.CommandLine UserScripts.Main

/-- Runs the program on the archive of wikis. -/
def main (arguments : List String) : IO UInt32 := do
  let env ← readEnvironment
  let archive := (← IO.getEnv "SCRIPTMANAGER_WIKIS").getD "wikis.json"
  let wikis := ((← readFile? archive).bind Archive.ofText?).getD []
  let files ← readFiles (placesToLook env arguments)
  let report := CommandLine.run { wikis, files } { source := sourceIn wikis } env arguments
  for o in report.output do
    for line in o.lines do
      IO.println line
  writeLogs report.world
  if report.world.wikis ≠ wikis then
    IO.FS.writeFile archive (Archive.toText report.world.wikis)
  finish report.finish
