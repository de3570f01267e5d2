import UserScripts.Text.Quoted
import UserScripts.Text.Scan

/-!
# Arguments

How a list of arguments is taken apart into options and positional arguments. A long option may carry its value after an equals
sign, a short one right after its letter, and otherwise the next argument is the value, whatever it looks like. Two hyphens end
the options.

The help screens are left out. The program and each command would show one for `--help` and end without an error; here `--help` is
refused like any option that there is not. Either way no page is read or edited.
-/

namespace UserScripts.CommandLine

open UserScripts.Text

/-- Why a command line is refused. -/
inductive UsageError where
  | noSuchOption (name : String)
  | needsValue (name : String)
  | takesNoValue (name : String)
  | noSuchCommand (name : String)
  | missingCommand
  | missingOption (name : String)
  | extraArguments (arguments : List String)
  | invalid (reason : String)
deriving DecidableEq, Repr

/-- The wording of a usage error. -/
def UsageError.message : UsageError → String
  | .noSuchOption name => "No such option: " ++ name
  | .needsValue name => "Option " ++ quoted name.toList ++ " requires an argument."
  | .takesNoValue name => "Option " ++ quoted name.toList ++ " does not take a value."
  | .noSuchCommand name => "No such command " ++ quoted name.toList ++ "."
  | .missingCommand => "Missing command."
  | .missingOption name => "Missing option " ++ quoted name.toList ++ "."
  | .extraArguments arguments =>
    "Got unexpected extra argument(s) (" ++ String.ofList (joinWith ' ' (arguments.map String.toList)) ++ ")"
  | .invalid reason => "Invalid value: " ++ reason

/-- The declaration of an option. -/
structure OptionKind where
  long : String
  short : Option Char := none
  takesValue : Bool := true
deriving DecidableEq, Repr

/-- The options and positional arguments of a command line, in order. Every option comes under its long name, one without a value
with the empty text. -/
structure Arguments where
  options : List (String × String) := []
  positional : List String := []
deriving DecidableEq, Repr

namespace Arguments

/-- All values of an option. -/
def values (a : Arguments) (name : String) : List String :=
  (a.options.filter (·.1 == name)).map Prod.snd

/-- The value of an option, the last one if it is repeated. -/
def value? (a : Arguments) (name : String) : Option String :=
  (a.values name).getLast?

/-- Whether an option is given. -/
def has (a : Arguments) (name : String) : Bool :=
  !(a.values name).isEmpty

/-- The arguments with further options before them. -/
def withOptions (found : List (String × String)) (a : Arguments) : Arguments :=
  { a with options := found ++ a.options }

end Arguments

/-- What is read from one argument: complete options, and possibly one that takes the next argument as its value, under the name
by which it is declared and the one by which it is given. -/
structure Reading where
  found : List (String × String) := []
  pending : Option (String × String) := none
deriving DecidableEq, Repr

/-- Whether an argument is an option rather than a positional argument. -/
def isOption (argument : String) : Bool :=
  match argument.toList with
  | '-' :: _ :: _ => true
  | _ => false

/-- Reads a long option with the value that it carries. -/
def readLong (kinds : List OptionKind) (name : String) (carried : Option String) : Except UsageError Reading :=
  match kinds.find? (·.long == name), carried with
  | none, _ => .error (.noSuchOption name)
  | some kind, some value => if kind.takesValue then .ok { found := [(kind.long, value)] } else .error (.takesNoValue name)
  | some kind, none =>
    if kind.takesValue then .ok { pending := some (kind.long, name) } else .ok { found := [(kind.long, "")] }

/-- Reads short options that share one hyphen. The first one that takes a value takes the rest of the argument. -/
def readShort (kinds : List OptionKind) : List Char → Except UsageError Reading
  | [] => .ok {}
  | c :: rest =>
    let name := String.ofList ['-', c]
    match kinds.find? (·.short == some c) with
    | none => .error (.noSuchOption name)
    | some kind =>
      if kind.takesValue then
        if rest.isEmpty then .ok { pending := some (kind.long, name) }
        else .ok { found := [(kind.long, String.ofList rest)] }
      else (readShort kinds rest).map fun r => { r with found := (kind.long, "") :: r.found }

/-- Reads an argument that is an option. -/
def readOption (kinds : List OptionKind) (argument : String) : Except UsageError Reading :=
  match argument.toList with
  | '-' :: '-' :: _ =>
    match cutAt? '=' argument.toList with
    | some (name, value) => readLong kinds (String.ofList name) (some (String.ofList value))
    | none => readLong kinds argument none
  | _ => readShort kinds (argument.toList.drop 1)

/-- Takes a command line apart. If `mixed` does not hold, the first positional argument ends the options. -/
def takeApart (kinds : List OptionKind) (mixed : Bool) : List String → Except UsageError Arguments
  | [] => .ok {}
  | argument :: rest =>
    if argument = "--" then .ok { positional := rest }
    else if isOption argument then
      match readOption kinds argument with
      | .error e => .error e
      | .ok { found, pending := none } => (takeApart kinds mixed rest).map (Arguments.withOptions found)
      | .ok { found, pending := some (long, name) } =>
        match rest with
        | [] => .error (.needsValue name)
        | value :: rest => (takeApart kinds mixed rest).map (Arguments.withOptions (found ++ [(long, value)]))
    else if mixed then (takeApart kinds mixed rest).map fun a => { a with positional := argument :: a.positional }
    else .ok { positional := argument :: rest }

end UserScripts.CommandLine
