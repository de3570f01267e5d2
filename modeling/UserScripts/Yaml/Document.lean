import UserScripts.Value.Basic
import UserScripts.Yaml.Node

/-!
# Documents

The value of a document. A scalar becomes what its tag says, a list a list, and a map a map, which can take in the members
of other maps. A collection cannot hold itself. The tree is gone through level by level, so of several things that are wrong
with it the outermost one counts, and of those on one level the first one.
-/

namespace UserScripts.Yaml

/-- Something that is wrong inside a part of a document. -/
structure Flaw where
  fault : Malformed
  /-- How many levels further inside it is found. -/
  depth : Nat := 0
deriving DecidableEq, Repr

/-- What a part of a document stands for, or what is wrong with it. -/
abbrev Built := Except Flaw

namespace Built

variable {α β : Type}

/-- What is seen without going further inside. -/
def here : Except Malformed α → Built α :=
  Except.mapError fun fault => { fault }

/-- What is seen one level further inside. -/
def inside : Built α → Built α :=
  Except.mapError fun flaw => { flaw with depth := flaw.depth + 1 }

/-- A part together with one that comes after it. -/
def both : Built α → Built β → Built (α × β)
  | .ok a, .ok b => .ok (a, b)
  | .ok _, .error e => .error e
  | .error e, .ok _ => .error e
  | .error e, .error f => .error (if f.depth < e.depth then f else e)

/-- All parts of a level. -/
def all : List (Built α) → Built (List α)
  | [] => .ok []
  | a :: rest => (both a (all rest)).map fun (a, rest) => a :: rest

end Built

/-- The value of a scalar. -/
def Scalar.value (tag : Tag) (text : String) : Except Malformed Value :=
  match tag with
  | .null => .ok .null
  | .bool => (Scalar.bool text).map .bool
  | .int => (Scalar.int text).map .int
  | .float => (Scalar.float text).map .float
  | .text => .ok (.text text)
  | .moment => (Scalar.moment text).map .moment
  | _ => .error .kind

/-- Whether a tag is that of a collection. -/
def Tag.isCollection : Tag → Bool
  | .list => true
  | .map => true
  | .set => true
  | .pairs => true
  | _ => false

namespace Node

/-- The tag of a node. -/
def tag : Node → Tag
  | .scalar tag _ => tag
  | .list tag _ => tag
  | .map tag _ => tag
  | .within => .other ""

mutual

/-- The text of a node with the tag of a scalar. A map stands for the scalar that it holds under its default key. -/
def text : Node → Except Malformed String
  | .scalar _ text => .ok text
  | .list _ _ => .error .kind
  | .map _ members => textOfDefault members
  | .within => .error .kind

/-- The text of the member under the default key. -/
def textOfDefault : List (Node × Node) → Except Malformed String
  | [] => .error .kind
  | (key, value) :: rest => if key.tag = .default then value.text else textOfDefault rest

end

/-- The value of a node with the tag of a scalar. -/
def scalarValue (node : Node) : Except Malformed Value :=
  node.text.bind (Scalar.value node.tag)

/-- The key that a node stands for. The default key stands for itself here, and a collection cannot be a key. -/
def key (node : Node) : Except Malformed Key :=
  match node.tag with
  | .default => node.text.map .text
  | _ =>
    match node.scalarValue with
    | .ok value => value.toKey?.elim (.error .kind) .ok
    | .error e => .error e

/-- A member of a map. -/
abbrev Member := Built (Key × Value)

mutual

/-- The value of a node. -/
def value : Node → Built Value
  | .list .list items => Built.inside ((Built.all (values items)).map .list)
  | .list .pairs items => Built.inside ((Built.all (pairs items)).map .list)
  | .map .map fields =>
    Built.inside ((Built.here (members fields)).bind fun (taken, own) =>
      (Built.all (taken ++ own)).map fun fields => .map (Fields.ofMembers fields))
  | .map .set fields =>
    Built.inside ((Built.here (members fields)).bind fun (taken, own) =>
      (Built.all (taken ++ own)).map fun fields => .list ((Fields.ofMembers fields).map fun field => field.1.toValue))
  | node => if node.tag.isCollection then .error ⟨.kind, 1⟩ else Built.here node.scalarValue

/-- The values of the items of a list. -/
def values : List Node → List (Built Value)
  | [] => []
  | item :: rest => value item :: values rest

/-- The items of a list of pairs, each of which is a map with one member. -/
def pairs : List Node → List (Built Value)
  | .map _ [(a, b)] :: rest => (Built.both (value a) (value b)).map (fun (a, b) => .list [a, b]) :: pairs rest
  | _ :: rest => .error ⟨.kind, 0⟩ :: pairs rest
  | [] => []

/-- The members that a map takes in, and its own ones. -/
def members : List (Node × Node) → Except Malformed (List Member × List Member)
  | [] => .ok ([], [])
  | (name, node) :: rest =>
    if name.tag = .merge then do
      let first ← taken node
      let (more, own) ← members rest
      return (first ++ more, own)
    else do
      let (more, own) ← members rest
      return (more, Built.both (Built.here name.key) (value node) :: own)

/-- The members that a map takes in from a map, or from several ones, of which the first one has the last word. From a map
around it there is nothing to be taken. -/
def taken : Node → Except Malformed (List Member)
  | .within => .ok []
  | .scalar _ _ => .error .kind
  | .list _ items => takenFromAll items
  | .map _ fields => (members fields).map fun (taken, own) => taken ++ own

/-- The members that a map takes in from a list of maps. -/
def takenFromAll : List Node → Except Malformed (List Member)
  | .map _ fields :: rest => do
    let (taken, own) ← members fields
    return (← takenFromAll rest) ++ taken ++ own
  | _ :: _ => .error .kind
  | [] => .ok []

end

end Node

/-- The value of a text. It holds one document, or nothing. -/
def ofText (text : List Char) : Except Malformed Value :=
  if !text.all isPrintable then .error .character
  else do
    let (tokens, fault) := tokens (unifyBreaks text)
    match ← Node.ofTokens tokens (fault.getD .layout) with
    | none => return .null
    | some node => node.value.mapError Flaw.fault

end UserScripts.Yaml
