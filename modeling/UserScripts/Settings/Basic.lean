import UserScripts.Keyed
import UserScripts.Wiki.Host

/-!
# Settings

Who the user is, on which wiki the pages with script statements live, and what is written into edits. A target is the name of
one such page; the empty name stands for the default target, and one target, the global one, lives on a wiki of its own.
-/

namespace UserScripts

open UserScripts.Text

/-- The texts of the program by name, in three layers. -/
structure Messages where
  /-- English texts, always used for the global target. -/
  fallback : Keyed String String := []
  /-- Texts in the language of the user. -/
  current : Keyed String String := []
  /-- Texts in the language of the wiki, which win in edit summaries. -/
  site : Keyed String String := []
deriving DecidableEq, Repr

/-- The text under a name in the language of the user, else in English, else the default, else the name itself. Empty texts
count as missing. -/
def Messages.wording (m : Messages) (key : String) (default : Option String) : String :=
  (given (m.current.get? key) <|> given (m.fallback.get? key)).getD (default.getD key)

/-- The settings of a session. -/
structure Settings where
  /-- The host of the wiki the pages live on. -/
  serverName : String := ""
  userName : String := ""
  /-- The name of the user namespace on that wiki. -/
  userNamespace : String := "User"
  targets : List String := ["common", "global", "monobook", "minerva", "vector", "vector-2022", "timeless"]
  defaultTarget : String := "common"
  /-- The target that is stored on the central wiki. -/
  globalTarget : String := "global"
  /-- The fragment of the host of the central wiki. -/
  globalWiki : String := "meta.wikimedia"
  /-- What every edit summary ends with. -/
  summaryTag : String := ""
  /-- How many characters of a script are searched for a documentation link; a negative number leaves that many out. -/
  docScanLimit : Int := 2000
  /-- How long a wrapper waits for a listener, in milliseconds. -/
  fallbackDelay : Int := 5000
  /-- The hosts on which summaries are English, with their subdomains. -/
  englishOnlyHosts : List String := ["mediawiki.org", "wikidata.org"]
  messages : Messages := {}
deriving DecidableEq, Repr

namespace Settings

/-- The target that a name stands for. -/
def targetOr (s : Settings) (target : String) : String :=
  if target = "" then s.defaultTarget else target

/-- Whether a target lives on the central wiki. -/
def isGlobal (s : Settings) (target : String) : Bool :=
  s.targetOr target == s.globalTarget

/-- The title of the page behind a target. -/
def targetTitle (s : Settings) (target : String) : String :=
  let name := s.targetOr target
  (if s.isGlobal name then "User" else s.userNamespace) ++ ":" ++ s.userName ++ "/" ++ name ++ ".js"

/-- The fragment of the wiki the pages live on. -/
def currentWiki (s : Settings) : String :=
  Wiki.fragment s.serverName

/-- The fragment of the wiki a target lives on. -/
def targetWiki (s : Settings) (target : String) : String :=
  if s.isGlobal target then s.globalWiki else s.currentWiki

/-- Whether a text is a host in any case, a line feed at its end aside. -/
def isHost (host s : List Char) : Bool :=
  match afterFold? host s with
  | some rest => atEnd rest
  | none => false

/-- Whether what follows some point of a text is the given host. -/
def hasParent (host : List Char) : List Char → Bool
  | [] => false
  | c :: s => (c == '.' && isHost host s) || hasParent host s

/-- Whether a server belongs to a host: it is the host or one of its subdomains. -/
def belongsTo (server host : String) : Bool :=
  isHost host.toList server.toList || hasParent host.toList server.toList

/-- Whether the wiki takes English summaries only. -/
def isEnglishOnly (s : Settings) : Bool :=
  s.englishOnlyHosts.any (belongsTo s.serverName)

end Settings

end UserScripts
