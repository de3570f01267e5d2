import UserScripts.CommandLine.Arguments
import UserScripts.Entry.Address

/-!
# Commands

The options of the program, and its commands with their own options. A script is named by a page title, by a page title with its
wiki, or by a URL.
-/

namespace UserScripts.CommandLine

open UserScripts.Text

/-- The options of the program, which stand before the command. -/
structure Options where
  /-- The sources of settings, in order. -/
  sources : List String := []
  site : Option String := none
  user : Option String := none
  dryRun : Bool := false
  /-- Whether the documentation of scripts is looked up. -/
  resolveDocs : Bool := true
  logFile : Option String := none
deriving DecidableEq, Repr

/-- The declarations of the options of the program. -/
def programKinds : List OptionKind :=
  [{ long := "--config", short := some 'c' }, { long := "--site" }, { long := "--user" },
    { long := "--dry-run", takesValue := false }, { long := "--resolve-docs", takesValue := false },
    { long := "--no-resolve-docs", takesValue := false }, { long := "--log-file" }]

/-- Whether the documentation is looked up; the last option that says so counts. -/
def resolvesDocs (a : Arguments) : Bool :=
  match (a.options.filter fun (name, _) => name == "--resolve-docs" || name == "--no-resolve-docs").getLast? with
  | some (name, _) => name == "--resolve-docs"
  | none => true

/-- The options of the program, read from its arguments. -/
def Options.ofArguments (a : Arguments) : Options where
  sources := a.values "--config"
  site := a.value? "--site"
  user := a.value? "--user"
  dryRun := a.has "--dry-run"
  resolveDocs := resolvesDocs a
  logFile := a.value? "--log-file"

/-- The names of the commands. -/
inductive CommandName where
  | list
  | install
  | uninstall
  | enable
  | disable
  | move
  | normalize
  | capture
  | decapture
deriving DecidableEq, Repr

/-- The word for a command. -/
def CommandName.word : CommandName → String
  | .list => "list"
  | .install => "install"
  | .uninstall => "uninstall"
  | .enable => "enable"
  | .disable => "disable"
  | .move => "move"
  | .normalize => "normalize"
  | .capture => "capture"
  | .decapture => "decapture"

/-- All commands. -/
def CommandName.every : List CommandName :=
  [.list, .install, .uninstall, .enable, .disable, .move, .normalize, .capture, .decapture]

/-- The command that a word names. -/
def CommandName.ofWord? (word : String) : Option CommandName :=
  every.find? (·.word == word)

/-- How the arguments of a command name a script. -/
structure ScriptName where
  page : Option String
  wiki : Option String
  url : Option String
  target : Option String
deriving DecidableEq, Repr

/-- A command with what its arguments say. -/
inductive Command where
  | list (targets : List String)
  | install (script : ScriptName)
  | uninstall (script : ScriptName)
  | enable (script : ScriptName)
  | disable (script : ScriptName)
  | move (script : ScriptName) (destination : String)
  | normalize (targets : List String)
  | capture (script : ScriptName) (name : Option String)
  | decapture (script : ScriptName)
deriving DecidableEq, Repr

/-- The declaration of the option for a target. -/
def targetKind : OptionKind :=
  { long := "--target", short := some 't' }

/-- The declarations of the options of a command. -/
def CommandName.kinds : CommandName → List OptionKind
  | .list => [targetKind]
  | .normalize => [targetKind]
  | .move => [targetKind, { long := "--wiki" }, { long := "--url" }, { long := "--to" }]
  | .capture => [targetKind, { long := "--wiki" }, { long := "--url" }, { long := "--name" }]
  | _ => [targetKind, { long := "--wiki" }, { long := "--url" }]

/-- Refuses positional arguments beyond those that a command takes. -/
def noMore (arguments : List String) : Except UsageError Unit :=
  if arguments.isEmpty then .ok () else .error (.extraArguments arguments)

/-- The script that the arguments of a command name. -/
def scriptOf (a : Arguments) : ScriptName where
  page := a.positional.head?
  wiki := a.value? "--wiki"
  url := a.value? "--url"
  target := a.value? "--target"

/-- The command with the given arguments. A missing option is found before an argument too many. -/
def Command.ofArguments (name : CommandName) (arguments : List String) : Except UsageError Command := do
  let a ← takeApart name.kinds true arguments
  let script := scriptOf a
  match name with
  | .list =>
    noMore a.positional
    return .list (a.values "--target")
  | .normalize =>
    noMore a.positional
    return .normalize (a.values "--target")
  | .move =>
    match a.value? "--to" with
    | none => throw (.missingOption "--to")
    | some destination =>
      noMore (a.positional.drop 1)
      return .move script destination
  | .capture =>
    noMore (a.positional.drop 1)
    return .capture script (a.value? "--name")
  | .install =>
    noMore (a.positional.drop 1)
    return .install script
  | .uninstall =>
    noMore (a.positional.drop 1)
    return .uninstall script
  | .enable =>
    noMore (a.positional.drop 1)
    return .enable script
  | .disable =>
    noMore (a.positional.drop 1)
    return .disable script
  | .decapture =>
    noMore (a.positional.drop 1)
    return .decapture script

/-- Words separated by commas. -/
def commaList : List String → String
  | [] => ""
  | [word] => word
  | word :: next :: rest => word ++ ", " ++ commaList (next :: rest)

/-- The entry that a command is about. The target has to be one of the settings, and just one of page and URL has to be given. -/
def ScriptName.entry (n : ScriptName) (s : Settings) : Except UsageError Entry :=
  let target := (given n.target).getD s.defaultTarget
  if !s.targets.contains target then
    .error (.invalid ("Unknown target '" ++ target ++ "', expected one of " ++ commaList s.targets))
  else match given n.page, given n.url with
    | some page, none =>
      if h : page = "" then .error (.invalid "Give either a page title or --url")
      else .ok (Entry.ofPage page h (given n.wiki) target false)
    | none, some url =>
      if h : url = "" then .error (.invalid "Give either a page title or --url")
      else .ok (Entry.ofAddress url h target false)
    | _, _ => .error (.invalid "Give either a page title or --url")

end UserScripts.CommandLine
