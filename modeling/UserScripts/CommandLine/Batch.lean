import UserScripts.CommandLine.Program

/-!
# The batch

A second program, which normalizes all targets of a user in one go and goes on when one of them fails.
-/

namespace UserScripts.CommandLine

open UserScripts.Text

/-- The name of the batch program. -/
def batchName : String := "normalize_all_targets.py"

/-- How the batch program is used. -/
def batchUsage : String :=
  "Normalize the script lines of every target page of a user.\n\nUsage: " ++ batchName ++ " <site> <user> \n\n" ++
    "The password is read from SCRIPTMANAGER_PASSWORD. Set SCRIPTMANAGER_DRY_RUN=1\n" ++
    "to print the edits instead of saving them.\n"

/-- Whether the environment asks a batch to keep its edits to itself. -/
def Environment.isDryBatch (env : Environment) : Bool :=
  ["1", "true"].contains (lower env.dryBatch)

/-- The line for a target of a batch. -/
def statusLine (target : String) (status : Manager.Status) : String :=
  "  " ++ padTo 12 target ++ " " ++ status.word

/-- What is printed about an edit of a dry batch. -/
def batchEdit (e : Edit) : List Output :=
  [.text ("\n" ++ e.title), .text e.change.text]

/-- Normalizes all targets under settings that have been loaded. -/
def batchUnder (w : World) (surroundings : Surroundings) (env : Environment) (s : Settings) (site user : String) : Report :=
  let manager : Manager := { settings := s, linksDocs := true }
  let head := "Normalizing " ++ toString s.targets.length ++ " targets of " ++ user ++ " on " ++ site ++ "\n"
  let (outcome, session) := (w.session s env.isDryBatch).run surroundings (manager.normalizeBatch s.targets)
  let report : Report :=
    { finish := .malformedUrl
      output := [.text head]
      requests := World.requests s env
      lookups := session.lookups
      world := w.afterSession s session }
  match outcome with
  | .error _ => report
  | .ok statuses =>
    let edits := if env.isDryBatch then session.services.flatMap Service.edits else []
    { report with
      finish := .exit (if statuses.any fun (_, status) => status = .error then 1 else 0)
      output := report.output ++ (statuses.map fun (target, status) => .text (statusLine target status)) ++
        edits.flatMap batchEdit }

/-- Runs the batch program with the given arguments. -/
def runBatch (w : World) (surroundings : Surroundings) (env : Environment) : List String → Report
  | site :: user :: sources =>
    match w.settings env sources [("server_name", .text site), ("user_name", .text user)] with
    | .error finish => { finish, world := w }
    | .ok s => batchUnder w surroundings env s site user
  | _ => { finish := .exit 2, output := [.text batchUsage], world := w }

/-- Runs whichever program the arguments name. -/
def run (w : World) (surroundings : Surroundings) (env : Environment) (arguments : List String) : Report :=
  match arguments with
  | name :: rest => if name = batchName then runBatch w surroundings env rest else runProgram w surroundings env arguments
  | [] => runProgram w surroundings env []

/-- The names of the configuration files that a command line mentions. -/
def mentionedFiles (arguments : List String) : List String :=
  let sources := match arguments with
    | [] => []
    | name :: rest =>
      if name = batchName then rest.drop 2
      else match takeApart programKinds false arguments with
        | .ok a => a.values "--config"
        | .error _ => []
  sources.filter fun source => !source.toList.contains '='

/-- The places at which a run may look for configuration files. -/
def placesToLook (env : Environment) (arguments : List String) : List Path :=
  (mentionedFiles arguments).flatMap fun name =>
    match (Path.ofText name).toYaml? with
    | some path => Settings.candidates env.configFolder path
    | none => []

end UserScripts.CommandLine
