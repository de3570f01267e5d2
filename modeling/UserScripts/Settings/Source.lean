import UserScripts.Settings.Layer
import UserScripts.Yaml.Document

/-!
# Sources of settings

A layer is given either as `key.path=value` or as the name of a file. A file is looked for as it is named, then in the
configuration folder, then among the built-in files.
-/

namespace UserScripts

open UserScripts.Text

/-- A path: where it starts, and its parts without empty and `.` parts. -/
structure Path where
  /-- The slashes at its start: none, one, or two. -/
  root : String
  parts : List String
deriving DecidableEq, Repr

namespace Path

/-- Whether a path starts at the root of all files. -/
def isAbsolute (p : Path) : Bool :=
  p.root != ""

/-- The slashes at the start of a path. Just two of them are kept, and more than two count as one. -/
def rootOf (s : List Char) : String :=
  match s.takeWhile (· == '/') with
  | [] => ""
  | ['/', '/'] => "//"
  | _ => "/"

/-- The path that a text is. -/
def ofText (text : String) : Path :=
  ⟨rootOf text.toList, ((splitOn '/' text.toList).map String.ofList).filter fun part => part != "" && part != "."⟩

/-- The text of a path. -/
def toText (p : Path) : String :=
  let body := String.ofList (joinWith '/' (p.parts.map String.toList))
  if p.isAbsolute || !p.parts.isEmpty then p.root ++ body else "."

/-- A path taken from a folder. -/
def below (folder p : Path) : Path :=
  if p.isAbsolute then p else ⟨folder.root, folder.parts ++ p.parts⟩

/-- A name split before its last point. A point that starts or ends the name does not split it. -/
def splitSuffix (name : List Char) : List Char × List Char :=
  let suffix := (name.reverse.takeWhile (· != '.')).reverse
  let stem := name.take (name.length - suffix.length - 1)
  if suffix.isEmpty || stem.isEmpty || suffix.length == name.length then (name, []) else (stem, '.' :: suffix)

/-- The path with the suffix of a configuration file instead of its own, if it has a name. -/
def toYaml? (p : Path) : Option Path :=
  p.parts.getLast?.map fun name =>
    { p with parts := p.parts.dropLast ++ [String.ofList ((splitSuffix name.toList).1 ++ ".yaml".toList)] }

end Path

/-- A tree of files, given by the paths of the files. -/
abbrev FileTree := Keyed String String

namespace FileTree

/-- What stands at a place of the tree. -/
inductive Node where
  | folder
  | file (text : String)
deriving DecidableEq, Repr

/-- Whether a file is the one at a place, given as a path. -/
def isAt (place : Path) (file : String × String) : Bool :=
  Path.ofText file.1 = place

/-- Whether a file lies below a place, given as a path. -/
def isBelow (place : Path) (file : String × String) : Bool :=
  let path := Path.ofText file.1
  path.root = place.root && place.parts.isPrefixOf path.parts

/-- What stands at a place, given as a path without `..` parts. -/
def node? (tree : FileTree) (place : Path) : Option Node :=
  match List.find? (isAt place) tree with
  | some (_, text) => some (.file text)
  | none => if place.parts.isEmpty || tree.any (isBelow place) then some .folder else none

/-- The folder above a place. Nothing is known above the place where a relative path starts, and nothing is above a root. -/
def parent? (place : Path) : Option Path :=
  if place.parts.isEmpty then if place.isAbsolute then some place else none
  else some { place with parts := place.parts.dropLast }

/-- What parts lead to from a place. Every part but the last has to be a folder. -/
def walk (tree : FileTree) (place : Path) : List String → Option Node
  | [] => tree.node? place
  | part :: rest =>
    if tree.node? place ≠ some .folder then none
    else if part = ".." then (parent? place).bind fun place => tree.walk place rest
    else tree.walk { place with parts := place.parts ++ [part] } rest

/-- What a path leads to. -/
def find? (tree : FileTree) (path : Path) : Option Node :=
  tree.walk ⟨path.root, []⟩ path.parts

/-- Whether parts lead from a place through folders to a name that is longer than the name of a file can be. -/
def meetsLongName (tree : FileTree) (place : Path) : List String → Bool
  | [] => false
  | part :: rest =>
    tree.node? place = some .folder &&
      if part = ".." then (parent? place).any fun place => tree.meetsLongName place rest
      else 255 < part.utf8ByteSize || tree.meetsLongName { place with parts := place.parts ++ [part] } rest

/-- Whether a path cannot be followed because it or a name in it is too long. -/
def isTooLong (tree : FileTree) (path : Path) : Bool :=
  4095 < path.toText.utf8ByteSize || tree.meetsLongName ⟨path.root, []⟩ path.parts

end FileTree

namespace Settings

/-- Why a layer cannot be had from its source. -/
inductive SourceError where
  /-- No file is found under the name. -/
  | noFile (name : String)
  /-- The name is no name of a file. -/
  | noName
  /-- The name is too long for a file. -/
  | longName
  /-- The name leads to a folder. -/
  | folder
  | malformed (reason : Yaml.Malformed)
  /-- The value is a number or a nest that is too large. -/
  | tooLarge (reason : Json.Fault)
  /-- The file does not hold a map. -/
  | notMap
deriving DecidableEq, Repr

/-- The wording of the error for a missing file. -/
def SourceError.message : SourceError → String
  | .noFile name => "Could not find config file for " ++ name
  | _ => ""

/-- Where a configuration file is found. -/
inductive Found where
  | inTree (path : Path) (node : FileTree.Node)
  /-- The built-in file, found by a path from the built-in folder. -/
  | builtin (path : Path)
deriving DecidableEq, Repr

/-- The places at which a configuration file is looked for, in order. The folder is that of the user's configuration files. -/
def candidates (folder : Option String) (path : Path) : List Path :=
  [path, Path.below (Path.ofText (folder.getD ".")) path]

/-- The folder of the built-in files. -/
def builtinFolder : Path :=
  ⟨"", ["scriptmanager", "config"]⟩

/-- The built-in folder with its only file, and the folder around it. -/
def builtinTree : FileTree :=
  [((Path.below builtinFolder ⟨"", ["default.yaml"]⟩).toText, "")]

/-- Whether a path leads from the built-in folder to the built-in file. -/
def isBuiltin (path : Path) : Bool :=
  !path.isAbsolute && (builtinTree.find? (Path.below builtinFolder path)).isSome

/-- The first of some places at which there is something. None of the places before it may have a name that is too long. -/
def firstFound (tree : FileTree) : List Path → Except SourceError (Option Found)
  | [] => .ok none
  | path :: rest =>
    if tree.isTooLong path then .error .longName
    else match tree.find? path with
      | some node => .ok (some (.inTree path node))
      | none => firstFound tree rest

/-- The place of the configuration file with the given name. -/
def locate (tree : FileTree) (folder : Option String) (name : String) : Except SourceError Found :=
  match (Path.ofText name).toYaml? with
  | none => .error .noName
  | some path => do
    match ← firstFound tree (candidates folder path) with
    | some found => return found
    | none => if isBuiltin path then return .builtin path else throw (.noFile path.toText)

/-- A value under a path of keys. -/
def nested (value : Value) : List String → Value
  | [] => value
  | key :: rest => .map [(key, nested value rest)]

/-- The value that the right side of `key=value` stands for: JSON if it has the form of it, else the text itself. -/
def valueOf (s : List Char) : Except SourceError Value :=
  match Json.read Json.Limits.usual s with
  | .ok value => .ok value
  | .error .malformed => .ok (.text (String.ofList s))
  | .error reason => .error (.tooLarge reason)

/-- The layer that a source stands for, as a value that may still be something else than a map. -/
def load (tree : FileTree) (folder : Option String) (source : String) : Except SourceError Value :=
  match cutAt? '=' source.toList with
  | some (key, value) => (valueOf value).map fun value => nested value ((splitOn '.' key).map String.ofList)
  | none => do
    match ← locate tree folder source with
    | .builtin _ => return .map builtin
    | .inTree _ .folder => throw .folder
    | .inTree _ (.file text) =>
      match Yaml.ofText text.toList with
      | .ok value => return if value.isEmpty then .map [] else value
      | .error reason => throw (.malformed reason)

/-- The fields of a layer. -/
def fieldsOf : Value → Except SourceError Fields
  | .map fields => .ok fields
  | _ => .error .notMap

/-- The layers of a list of sources. Every source is read before any of them is judged. -/
def readLayers (tree : FileTree) (folder : Option String) (sources : List String) : Except SourceError (List Fields) := do
  let values ← sources.mapM (load tree folder)
  values.mapM fieldsOf

/-- The layers of a list of sources above the built-in layer, and those of the caller on top. -/
def loadLayers (tree : FileTree) (folder : Option String) (sources : List String) (overrides : Fields) :
    Except SourceError (List Fields) := do
  let layers ← readLayers tree folder sources
  return builtin :: layers ++ [[(.text rootField, Value.map overrides)]]

end Settings

end UserScripts
