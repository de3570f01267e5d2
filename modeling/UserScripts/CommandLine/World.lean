import UserScripts.CommandLine.Command
import UserScripts.CommandLine.Screen
import UserScripts.Manager.Basic
import UserScripts.Session
import UserScripts.Settings.Source

/-!
# The world of a run

What a run of the program finds and what it leaves behind: the wikis by host, the files, and the log files that earlier runs have
opened. A run builds a session from them, works in it, and puts the pages and the notes back.
-/

namespace UserScripts.CommandLine

open UserScripts.Text

/-- What outlasts a run. -/
structure World where
  /-- The pages of the wikis, by host. -/
  wikis : Keyed String (Keyed String String) := []
  files : FileTree := []
  /-- The log files that are written, in the order in which they were opened. -/
  logs : List Path := []
deriving DecidableEq, Repr

/-- What the environment of a run says. -/
structure Environment where
  /-- The host and the user of a run for which no layer of the settings names them. -/
  server : String := ""
  user : String := ""
  password : String := ""
  /-- The folder of the configuration files. -/
  configFolder : Option String := none
  /-- Whether a batch keeps its edits to itself. -/
  dryBatch : String := ""
deriving DecidableEq, Repr

/-- The service that a run asks for: a host, and who logs in there. -/
structure ServiceRequest where
  host : String
  user : String
  password : String
deriving DecidableEq, Repr

/-- How a run ends. -/
inductive Finish where
  | exit (code : Nat)
  | usage (error : UsageError)
  /-- A layer of the settings cannot be had. -/
  | noSettings (error : Settings.SourceError)
  /-- The settings are not what they should be. -/
  | badSettings (issues : List Issue)
  | malformedUrl
deriving DecidableEq, Repr

namespace World

/-- The pages of a host. -/
def pagesOf (w : World) (host : String) : Keyed String String :=
  (w.wikis.get? host).getD []

/-- The world with a text added to the end of a file. -/
def appendFile (w : World) (path : Path) (text : String) : World :=
  let name := match List.find? (fun (name, _) => Path.ofText name = path) w.files with
    | some (name, _) => name
    | none => path.toText
  { w with files := w.files.put name ((w.files.get? name).getD "" ++ text) }

/-- The world with a log file opened. -/
def openLog (w : World) (path : Path) : World :=
  { w.appendFile path "" with logs := w.logs ++ [path] }

/-- The world after a note has been made: every open log file takes it. -/
def addNote (w : World) (n : Note) : World :=
  w.logs.foldl (fun w path => w.appendFile path (n.line ++ "\n")) w

/-- The world after notes have been made. -/
def addNotes (w : World) (notes : List Note) : World :=
  notes.foldl addNote w

/-- The host of the central wiki. -/
def centralHost (s : Settings) : String :=
  s.globalWiki ++ ".org"

/-- The services that a run under the given settings asks for. -/
def requests (s : Settings) (env : Environment) : List ServiceRequest :=
  [⟨s.serverName, s.userName, env.password⟩, ⟨centralHost s, s.userName, env.password⟩]

/-- The session of a run. If both wikis have one host, one service is used for both, unless each keeps a draft of its own. -/
def session (w : World) (s : Settings) (dryRun : Bool) : Session :=
  let draft := if dryRun then some {} else none
  let service host : Service := { wiki := { pages := w.pagesOf host }, draft }
  { home := service s.serverName
    central := if !dryRun && centralHost s = s.serverName then none else some (service (centralHost s)) }

/-- The world after a session: its pages and its notes are kept. -/
def afterSession (w : World) (s : Settings) (session : Session) : World :=
  let wikis := match session.central with
    | some central => (w.wikis.put s.serverName session.home.wiki.pages).put (centralHost s) central.wiki.pages
    | none => w.wikis.put s.serverName session.home.wiki.pages
  { w with wikis }.addNotes session.log

/-- The layer of what the environment says. -/
def environmentLayer (env : Environment) : Fields :=
  [(Settings.rootField, .map [("server_name", .text env.server), ("user_name", .text env.user)])]

/-- The settings of a run. -/
def settings (w : World) (env : Environment) (sources : List String) (overrides : Fields) : Except Finish Settings :=
  match Settings.loadLayers w.files env.configFolder sources overrides with
  | .error e => .error (.noSettings e)
  | .ok layers =>
    match Settings.ofLayers (environmentLayer env :: layers) with
    | .invalid issues => .error (.badSettings issues)
    | .valid s => .ok s

end World

/-- What a run has done. -/
structure Report where
  finish : Finish
  output : List Output := []
  requests : List ServiceRequest := []
  /-- The hosts and titles of the script sources that have been looked up. -/
  lookups : List (String × String) := []
  world : World
deriving DecidableEq, Repr

end UserScripts.CommandLine
