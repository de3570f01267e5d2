import UserScripts.CommandLine.World
import UserScripts.Manager.Capture
import UserScripts.Manager.Move
import UserScripts.Manager.Normalize
import UserScripts.Manager.Read

/-!
# The program

What a command line makes the program do. The options of the program are read first, then the settings are loaded and the services
are asked for, and only then are the arguments of the command read. Failures of an operation are printed and end the run.
-/

namespace UserScripts.CommandLine

open UserScripts.Text

/-- The state of a run at work. -/
structure Desk where
  surroundings : Surroundings
  manager : Manager
  dryRun : Bool
  session : Session
  output : List Output := []

/-- The work of a run, which may end it. -/
abbrev Shell := ExceptT Finish (StateM Desk)

namespace Shell

/-- Prints a text. -/
def print (text : String) : Shell Unit :=
  modify fun d => { d with output := d.output ++ [.text text] }

/-- Ends the run with a usage error if there is one. -/
def orUsage (outcome : Except UsageError α) : Shell α :=
  match outcome with
  | .ok a => pure a
  | .error e => throw (.usage e)

end Shell

/-- The word for what an edit does. -/
def modeOf : Change → String
  | .append _ => "append"
  | .replace _ => "replace"

/-- What is printed about an edit of a dry run. -/
def editOutput (e : Edit) : List Output :=
  [.text ("Dry run " ++ modeOf e.change ++ " " ++ e.title ++ ": " ++ e.summary), .text e.change.text]

/-- The service without the edits in its draft. -/
def clearDraft (s : Service) : Service :=
  { s with draft := s.draft.map fun draft => { draft with edits := [] } }

/-- The session without the edits in its drafts. -/
def clearDrafts (s : Session) : Session :=
  { s with home := clearDraft s.home, central := s.central.map clearDraft }

/-- What is printed about the edits of a dry run. -/
def editsOutput (edits : List Edit) : List Output :=
  if edits.isEmpty then [.text "Dry run: no edits"] else edits.flatMap editOutput

/-- Prints the edits of a dry run since the last time. -/
def printEdits : Shell Unit :=
  modify fun d =>
    { d with
      output := d.output ++ editsOutput (d.session.services.flatMap Service.edits)
      session := clearDrafts d.session }

/-- Ends the run because an operation has failed. -/
def abort (failure : Failure) : Shell α :=
  match failure.kind? with
  | some kind => do
    Shell.print (kind ++ ": " ++ failure.message)
    throw (.exit 1)
  | none => throw .malformedUrl

/-- Carries out an operation. A dry run prints the edits afterwards. -/
def perform (r : Routine α) : Shell α := do
  let d ← get
  let (outcome, session) := d.session.run d.surroundings r
  set { d with session }
  match outcome with
  | .error failure => abort failure
  | .ok a =>
    if d.dryRun then printEdits
    return a

/-- Says what has been done, or that there was nothing to do. -/
def report (changed : Bool) (message : String) : Shell Unit :=
  Shell.print (if changed then message else "Nothing to do: " ++ lower message)

/-- The statements and the items of some targets, each target once. -/
def loadListing (m : Manager) (targets : List String) : Routine (List (String × List Entry × List Item)) := do
  let loaded ← m.loadAll targets false
  let items ← inOrder (loaded.map Prod.fst)
  return (loaded.zip items).map fun ((target, entries), items) => (target, entries, items)
where
  inOrder : List String → Routine (List (List Item))
    | [] => pure []
    | target :: rest => do
      let items ← m.listCaptured target false
      let others ← inOrder rest
      return items :: others

/-- The row for a statement. -/
def entryRow (s : Settings) (target : String) (e : Entry) : List String :=
  [target, e.displayName, (given e.url).getD (e.sourceWiki s), if e.disabled then "disabled" else "enabled"]

/-- The row for a captured item. -/
def itemRow (target : String) (i : Item) : List String :=
  [target, i.name, i.key, "captured"]

/-- Prints the scripts of some targets. -/
def listScripts (m : Manager) (targets : List String) : Shell Unit := do
  let s := m.settings
  let loaded ← perform (loadListing m targets)
  let rows := loaded.flatMap fun (target, entries, items) => entries.map (entryRow s target) ++ items.map (itemRow target)
  modify fun d =>
    { d with output := d.output ++
        [.table ("Scripts of " ++ s.userName ++ " on " ++ s.serverName) ["Target", "Script", "Source", "State"] rows] }

/-- Normalizes targets one after the other. -/
def normalizeTargets (m : Manager) : List String → Shell Unit
  | [] => pure ()
  | target :: rest => do
    report (← perform (m.normalize target)) ("Normalized " ++ target)
    normalizeTargets m rest

/-- Carries out an operation on a script and reports it. -/
def onScript (s : Settings) (script : ScriptName) (operation : Entry → Routine Bool) (message : Entry → String) :
    Shell Unit := do
  let e ← Shell.orUsage (script.entry s)
  report (← perform (operation e)) (message e)

/-- A script and its target, in a report. -/
def nameOn (start middle : String) (e : Entry) : String :=
  start ++ " " ++ e.displayName ++ " " ++ middle ++ " " ++ e.target

/-- Carries out a command. -/
def execute (m : Manager) : Command → Shell Unit
  | .list targets => listScripts m targets
  | .install script => onScript m.settings script m.install (nameOn "Installed" "on")
  | .uninstall script => onScript m.settings script m.uninstall (nameOn "Uninstalled" "from")
  | .enable script => onScript m.settings script (m.setDisabled · false) (nameOn "Enabled" "on")
  | .disable script => onScript m.settings script (m.setDisabled · true) (nameOn "Disabled" "on")
  | .move script destination => do
    let e ← Shell.orUsage (script.entry m.settings)
    if !m.settings.targets.contains destination then
      throw (.usage (.invalid ("Unknown target '" ++ destination ++ "'")))
    report (← perform (m.move e destination)) (nameOn "Moved" "from" e ++ " to " ++ destination)
  | .normalize targets => normalizeTargets m (if targets.isEmpty then m.settings.targets else targets)
  | .capture script name => onScript m.settings script (m.capture · name) (nameOn "Captured" "on")
  | .decapture script =>
    onScript m.settings script m.decapture fun e => nameOn "Released" "from capture on" e

/-- A field that is given unless it is missing or empty. -/
def overrideOf (value : Option String) : Value :=
  match given value with
  | some text => .text text
  | none => .unset

/-- The world once the log file of a run is open, and what is printed about it. -/
def startLog (w : World) (o : Options) : World × List Output :=
  match o.logFile with
  | none => (w, [])
  | some name =>
    let path := Path.ofText name
    (w.openLog path, [.text ("Logging to '" ++ path.toText ++ "'")])

/-- The settings of a run, which have to name a wiki and a user. -/
def programSettings (w : World) (env : Environment) (o : Options) : Except Finish Settings := do
  let s ← w.settings env o.sources [("server_name", overrideOf o.site), ("user_name", overrideOf o.user)]
  if s.serverName = "" || s.userName = "" then
    throw (.usage (.invalid "Both --site and --user are required (or set them in a config file)"))
  return s

/-- Runs a command under settings that have been loaded. -/
def runCommand (w : World) (surroundings : Surroundings) (env : Environment) (o : Options) (s : Settings) (printed : List Output)
    (name : CommandName) (arguments : List String) : Report :=
  let w := w.addNote ⟨.program, .debug, "Managing scripts of " ++ s.userName ++ " on " ++ s.serverName⟩
  let manager : Manager := { settings := s, linksDocs := o.resolveDocs }
  let desk : Desk := { surroundings, manager, dryRun := o.dryRun, session := w.session s o.dryRun, output := printed }
  let work : Shell Unit := do execute manager (← Shell.orUsage (Command.ofArguments name arguments))
  let (outcome, desk) := (work.run).run desk
  { finish := match outcome with | .ok _ => .exit 0 | .error finish => finish
    output := desk.output
    requests := World.requests s env
    lookups := desk.session.lookups
    world := w.afterSession s desk.session }

/-- Runs the program with the given arguments. -/
def runProgram (w : World) (surroundings : Surroundings) (env : Environment) (arguments : List String) : Report :=
  match takeApart programKinds false arguments with
  | .error e => { finish := .usage e, world := w }
  | .ok a =>
    match a.positional with
    | [] => { finish := .usage .missingCommand, world := w }
    | word :: rest =>
      match CommandName.ofWord? word with
      | none => { finish := .usage (.noSuchCommand word), world := w }
      | some name =>
        let o := Options.ofArguments a
        let (w, printed) := startLog w o
        match programSettings w env o with
        | .error finish => { finish, output := printed, world := w }
        | .ok s => runCommand w surroundings env o s printed name rest

end UserScripts.CommandLine
