import UserScripts.Edit
import UserScripts.Text.Scan

/-!
# Connections

A connection to a wiki is opened on first use: the site is contacted, and the user logs in if a name and a password are given.
Only then is a page found, read or saved. A call tries its steps one after the other and ends with the first that fails; a
connection that could not be opened is opened anew by the next call.
-/

namespace UserScripts

open UserScripts.Text

/-- Whose connection it is, and to where. -/
structure Account where
  host : String
  scheme : String
  user : String := ""
  password : String := ""
  path : String := "/w/"
deriving DecidableEq, Repr

/-- A text without the slashes at its end. -/
def dropEndSlashes (s : List Char) : List Char :=
  (s.reverse.dropWhile (· == '/')).reverse

/-- The host and the scheme of a site, which is given as a URL or as a host. -/
def siteOfText (site : String) : String × String :=
  let s := site.toList
  match after? "https://".toList s, after? "http://".toList s with
  | some rest, _ => (String.ofList (dropEndSlashes rest), "https")
  | none, some rest => (String.ofList (dropEndSlashes rest), "http")
  | none, none => (String.ofList (dropEndSlashes (s.dropWhile (· == '/'))), "https")

/-- The account for a site. -/
def Account.ofSite (site user password path : String) : Account :=
  let (host, scheme) := siteOfText site
  { host, scheme, user, password, path }

/-- Whether the user of an account logs in. -/
def Account.logsIn (a : Account) : Bool :=
  a.user != "" && a.password != ""

namespace Connection

/-- What a connection asks of the wiki in order to serve a call. -/
inductive Step where
  | contact (host scheme path : String)
  | login (user password : String)
  /-- Finds a page, which shows whether it exists. -/
  | find (title : String)
  | read (title : String)
  | save (edit : Edit)
deriving DecidableEq, Repr

/-- Why a step fails. -/
inductive Fault where
  /-- The wiki refuses, or the network does not work. -/
  | service (message : String)
  /-- Anything else; nobody takes care of it. -/
  | other (kind message : String)
deriving DecidableEq, Repr

/-- A step that has been tried, and the fault with which it failed if it did. -/
structure Attempt where
  step : Step
  fault : Option Fault
deriving DecidableEq, Repr

/-- What is asked of a connection. -/
inductive Call where
  | get (title : String)
  | post (edit : Edit)
deriving DecidableEq, Repr

/-- What a call gives. -/
inductive Answer where
  | text (text : String)
  | saved
deriving DecidableEq, Repr

/-- Why a call fails. -/
inductive Failed where
  /-- The wiki cannot be used; the message says what the call was about. -/
  | transport (message : String)
  /-- Anything else is passed on as it is. -/
  | passed (kind message : String)
deriving DecidableEq, Repr

end Connection

/-- The wiki at the other end. Both the texts of its pages and the steps that fail may depend on how many steps have been tried. -/
structure Remote where
  text : Nat → String → Option String := fun _ _ => none
  fault : Nat → Connection.Step → Option Connection.Fault := fun _ _ => none

/-- The state of a connection. -/
structure Connection where
  account : Account
  /-- Whether the connection is open. -/
  isOpen : Bool := false
  /-- The steps that have been tried. -/
  tried : List Connection.Attempt := []
deriving DecidableEq, Repr

namespace Connection

/-- Tries a step. -/
def attempt (r : Remote) (c : Connection) (step : Step) : Except Fault Unit × Connection :=
  let fault := r.fault c.tried.length step
  (fault.elim (.ok ()) .error, { c with tried := c.tried ++ [⟨step, fault⟩] })

/-- Tries steps one after the other, up to the first that fails. -/
def attemptAll (r : Remote) (c : Connection) : List Step → Except Fault Unit × Connection
  | [] => (.ok (), c)
  | step :: rest =>
    match c.attempt r step with
    | (.error fault, c) => (.error fault, c)
    | (.ok _, c) => c.attemptAll r rest

/-- The steps that open a connection. -/
def opening (c : Connection) : List Step :=
  let a := c.account
  .contact a.host a.scheme a.path :: if a.logsIn then [.login a.user a.password] else []

/-- Opens the connection if it is not open. -/
def connect (r : Remote) (c : Connection) : Except Fault Unit × Connection :=
  if c.isOpen then (.ok (), c)
  else match c.attemptAll r c.opening with
    | (.error fault, c) => (.error fault, c)
    | (.ok _, c) => (.ok (), { c with isOpen := true })

/-- The steps that a call takes over an open connection. A page that is missing is not read. -/
def stepsOf (r : Remote) (c : Connection) : Call → List Step
  | .get title => .find title :: if (r.text c.tried.length title).isSome then [.read title] else []
  | .post edit => [.find edit.title, .save edit]

/-- What a call gives when all of its steps have succeeded; the last of them is the one that counts. -/
def answer (r : Remote) (c : Connection) : Call → Answer
  | .get title => .text ((r.text (c.tried.length - 1) title).getD "")
  | .post _ => .saved

/-- What a call is about, in the words of a failure. -/
def Call.subject (host : String) : Call → String
  | .get title => "Failed to fetch " ++ title ++ " from " ++ host
  | .post edit => "Failed to save " ++ edit.title ++ " on " ++ host

/-- The failure of a call of which a step failed. -/
def Fault.failed (subject : String) : Fault → Failed
  | .service message => .transport (subject ++ ": " ++ message)
  | .other kind message => .passed kind message

/-- Serves a call. -/
def serve (r : Remote) (c : Connection) (call : Call) : Except Failed Answer × Connection :=
  let subject := call.subject c.account.host
  match c.connect r with
  | (.error fault, c) => (.error (fault.failed subject), c)
  | (.ok _, c) =>
    match c.attemptAll r (c.stepsOf r call) with
    | (.error fault, c) => (.error (fault.failed subject), c)
    | (.ok _, c) => (.ok (c.answer r call), c)

/-- The connection after some calls, one after the other. -/
def serveAll (r : Remote) (c : Connection) (calls : List Call) : Connection :=
  calls.foldl (fun c call => (c.serve r call).2) c

/-- Reads a page of any wiki without logging in, over a connection of its own. -/
def fetchPage (r : Remote) (site title : String) : Except Failed Answer × Connection :=
  serve r { account := Account.ofSite site "" "" "/w/" } (.get title)

end Connection

end UserScripts
