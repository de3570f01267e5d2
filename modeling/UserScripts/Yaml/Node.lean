import UserScripts.Keyed
import UserScripts.Yaml.Scalar
import UserScripts.Yaml.Token

/-!
# Nodes

The tree of a document: scalars, lists and maps, each with a tag. A scalar or a collection can have an anchor, and an alias
stands for what has it. The tokens are read from left to right, one being looked at before it is taken; where they come to an
end because the text goes wrong, what is wrong with the text is what is wrong with the document.
-/

namespace UserScripts.Yaml

open Property (TagName Directive)

/-- A part of a document. -/
inductive Node where
  | scalar (tag : Tag) (text : String)
  | list (tag : Tag) (items : List Node)
  | map (tag : Tag) (members : List (Node × Node))
  /-- An alias of a collection of which it is itself a part. -/
  | within
deriving Repr

namespace Node

/-- The node where a value is left out. -/
def missing : Node := .scalar .null ""

/-- The state of the reading of a document. -/
structure State where
  tokens : List Token
  /-- What is wrong after the last token. -/
  fault : Malformed
  /-- What the anchors stand for; nothing as long as it is not complete. -/
  anchors : Keyed String (Option Node) := []
  /-- What the handles of tags are short for. -/
  handles : Keyed String String := []

/-- A step of the reading of a document. -/
abbrev Reading := StateT State (Except Malformed)

/-- The next token. -/
def peek : Reading Token := do
  let s ← get
  match s.tokens with
  | t :: _ => return t
  | [] => throw s.fault

/-- The next token, which is taken. -/
def take : Reading Token := do
  let t ← peek
  modify fun s => { s with tokens := s.tokens.tail }
  return t

/-- Takes the next token if it is the given one, and says whether it is. -/
def accept (t : Token) : Reading Bool := do
  if (← peek) = t then
    let _ ← take
    return true
  else return false

/-- The surroundings of a node. -/
inductive Position where
  /-- Inside a flow collection. -/
  | flow
  /-- An item of a block list, or the whole document. -/
  | block
  /-- The key or the value of a member of a block map, which can be a list that is not indented. -/
  | member
deriving DecidableEq, Repr

/-- The anchor and the tag before a node. -/
structure Properties where
  anchor : Option String := none
  tag : Option TagName := none
deriving DecidableEq, Repr

/-- Reads the anchor and the tag before a node, in any order. -/
def properties : Reading Properties := do
  match ← peek with
  | .anchor name =>
    let _ ← take
    match ← peek with
    | .tag tag =>
      let _ ← take
      return { anchor := name, tag }
    | _ => return { anchor := name }
  | .tag tag =>
    let _ ← take
    match ← peek with
    | .anchor name =>
      let _ ← take
      return { anchor := name, tag }
    | _ => return { tag }
  | _ => return {}

/-- The full name of a tag. -/
def fullName (tag : TagName) : Reading String := do
  match tag.handle with
  | none => return tag.suffix
  | some handle =>
    match Keyed.get? (← get).handles handle with
    | some start => return start ++ tag.suffix
    | none => throw .layout

/-- The tag of a node: its own unless that is missing or leaves the choice open. -/
def chosen (own : Option String) (usual : Tag) : Tag :=
  match own with
  | none => usual
  | some name => if name = "!" then usual else .ofName name

/-- The tag of a scalar. One in quotes is a text unless it has a tag. -/
def scalarTag (own : Option String) (text : String) (plain : Bool) : Tag :=
  chosen own (if plain || own.isSome then Scalar.tagOf text else .text)

/-- Notes what an anchor stands for. -/
def noteAnchor (anchor : Option String) (node : Option Node) : Reading Unit :=
  match anchor with
  | none => return
  | some name => modify fun s => { s with anchors := Keyed.put name node s.anchors }

/-- Notes a new anchor of which the node has only begun. -/
def beginAnchor (anchor : Option String) : Reading Unit := do
  match anchor with
  | none => return
  | some name =>
    if (Keyed.get? (← get).anchors name).isSome then throw .reference
    noteAnchor anchor none

/-- What an alias stands for. -/
def ofAlias (name : String) : Reading Node := do
  match Keyed.get? (← get).anchors name with
  | some (some node) => return node
  | some none => return .within
  | none => throw .reference

/-- How many collections can be around a node. -/
def mostLevels : Nat := 488

/-- Reads a collection, which takes up one of the levels that are left. -/
def collection (anchor : Option String) (levels : Nat) (read : (levels : Nat) → Reading Node) : Reading Node := do
  beginAnchor anchor
  match levels with
  | 0 => throw .depth
  | levels + 1 =>
    let node ← read levels
    noteAnchor anchor (some node)
    return node

/-- A scalar that has been read. -/
def leaf (anchor : Option String) (tag : Option String) (text : String) (plain : Bool) : Reading Node := do
  beginAnchor anchor
  let node : Node := .scalar (scalarTag tag text plain) text
  noteAnchor anchor (some node)
  return node

/-- A node of which there is nothing but its anchor or its tag. -/
def empty (anchor : Option String) (tag : Option String) : Reading Node :=
  if anchor.isNone && tag.isNone then throw .layout else leaf anchor tag "" true

/-- A node that is left out if the next token is one of those that come after it. -/
def optional (after : List Token) (read : Reading Node) : Reading Node := do
  if after.contains (← peek) then return missing else read

/-- Takes the comma between two parts of a flow collection. -/
def separator : Reading Unit := do
  if !(← accept .comma) then throw .layout

/-- A value that is left out if there is no colon before it. -/
def afterColon (after : List Token) (read : Reading Node) : Reading Node := do
  if ← accept .value then optional after read else return missing

mutual

/-- Reads a node with at most `levels` collections inside one another. -/
def node (position : Position) : (fuel levels : Nat) → Reading Node
  | 0, _ => throw .depth
  | fuel + 1, levels => do
    match ← peek with
    | .alias name =>
      let _ ← take
      ofAlias name
    | _ =>
      let own ← properties
      let tag ← own.tag.mapM fullName
      match ← peek with
      | .scalar text plain =>
        let _ ← take
        leaf own.anchor tag text plain
      | .listOpen =>
        collection own.anchor levels fun levels => do
          let _ ← take
          return .list (chosen tag .list) (← flowItems true fuel levels)
      | .mapOpen =>
        collection own.anchor levels fun levels => do
          let _ ← take
          return .map (chosen tag .map) (← flowMembers true fuel levels)
      | .dash =>
        if position = .member then
          collection own.anchor levels fun levels => return .list (chosen tag .list) (← looseItems fuel levels)
        else empty own.anchor tag
      | .blockList =>
        if position = .flow then empty own.anchor tag
        else collection own.anchor levels fun levels => do
          let _ ← take
          return .list (chosen tag .list) (← blockItems fuel levels)
      | .blockMap =>
        if position = .flow then empty own.anchor tag
        else collection own.anchor levels fun levels => do
          let _ ← take
          return .map (chosen tag .map) (← blockMembers fuel levels)
      | _ => empty own.anchor tag
termination_by structural fuel => fuel

/-- Reads the items of a list that is not indented. -/
def looseItems : (fuel levels : Nat) → Reading (List Node)
  | 0, _ => throw .depth
  | fuel + 1, levels => do
    if ← accept .dash then
      let item ← optional [.dash, .key, .value, .blockEnd] (node .block fuel levels)
      return item :: (← looseItems fuel levels)
    else return []
termination_by structural fuel => fuel

/-- Reads the items of a block list and its end. -/
def blockItems : (fuel levels : Nat) → Reading (List Node)
  | 0, _ => throw .depth
  | fuel + 1, levels => do
    if ← accept .dash then
      let item ← optional [.dash, .blockEnd] (node .block fuel levels)
      return item :: (← blockItems fuel levels)
    else if ← accept .blockEnd then return []
    else throw .layout
termination_by structural fuel => fuel

/-- Reads the members of a block map and its end. -/
def blockMembers : (fuel levels : Nat) → Reading (List (Node × Node))
  | 0, _ => throw .depth
  | fuel + 1, levels => do
    if ← accept .key then
      let key ← optional [.key, .value, .blockEnd] (node .member fuel levels)
      let value ← afterColon [.key, .value, .blockEnd] (node .member fuel levels)
      return (key, value) :: (← blockMembers fuel levels)
    else if ← accept .blockEnd then return []
    else throw .layout
termination_by structural fuel => fuel

/-- Reads the items of a flow list and its closing bracket. Between items stand commas; a key with its value is a map. -/
def flowItems (isFirst : Bool) : (fuel levels : Nat) → Reading (List Node)
  | 0, _ => throw .depth
  | fuel + 1, levels => do
    if ← accept .listClose then return []
    if !isFirst then separator
    if ← accept .listClose then return []
    let item ←
      if ← accept .key then
        collection none levels fun levels => do
          let key ← optional [.value, .comma, .listClose] (node .flow fuel levels)
          let value ← afterColon [.comma, .listClose] (node .flow fuel levels)
          return .map .map [(key, value)]
      else node .flow fuel levels
    return item :: (← flowItems false fuel levels)
termination_by structural fuel => fuel

/-- Reads the members of a flow map and its closing brace. Between members stand commas; a node alone is a key. -/
def flowMembers (isFirst : Bool) : (fuel levels : Nat) → Reading (List (Node × Node))
  | 0, _ => throw .depth
  | fuel + 1, levels => do
    if ← accept .mapClose then return []
    if !isFirst then separator
    if ← accept .mapClose then return []
    let (key, value) ←
      if ← accept .key then
        let key ← optional [.value, .comma, .mapClose] (node .flow fuel levels)
        let value ← afterColon [.comma, .mapClose] (node .flow fuel levels)
        pure (key, value)
      else pure (← node .flow fuel levels, missing)
    return (key, value) :: (← flowMembers false fuel levels)
termination_by structural fuel => fuel

end

/-- What the handles of tags are short for unless a directive says otherwise. -/
def usualHandles : Keyed String String :=
  [("!", "!"), ("!!", tagStart)]

/-- Reads directives: at most one of the version, which has to be the first, and one for each handle. -/
def directives (fuel : Nat) (versioned : Bool) (handles : Keyed String String) : Reading (Keyed String String) :=
  match fuel with
  | 0 => return handles
  | fuel + 1 => do
    match ← peek with
    | .directive directive =>
      let _ ← take
      match directive with
      | .version major => if versioned || major ≠ 1 then throw .layout else directives fuel true handles
      | .tag handle start =>
        if (Keyed.get? handles handle).isSome then throw .layout
        else directives fuel versioned (Keyed.put handle start handles)
      | .other => directives fuel versioned handles
    | _ => return handles

/-- Reads the directives before a document and the line that starts it. -/
def heading (fuel : Nat) : Reading Unit := do
  let own ← directives fuel false []
  modify fun s => { s with handles := own ++ usualHandles }
  if !(← accept .documentStart) then throw .layout

/-- Skips lines that end a document. -/
def skipEnds : (fuel : Nat) → Reading Unit
  | 0 => return
  | fuel + 1 => do if ← accept .documentEnd then skipEnds fuel

/-- Whether a token comes after a document, or before one with directives. -/
def isApart : Token → Bool
  | .directive _ => true
  | .documentStart => true
  | .documentEnd => true
  | .textEnd => true
  | _ => false

/-- Reads the end of the only document. -/
def ending (fuel : Nat) : Reading Unit := do
  skipEnds fuel
  if (← peek) ≠ .textEnd then
    heading fuel
    throw .documents

/-- Reads the only document of a text, if there is one. -/
def document (fuel : Nat) : Reading (Option Node) := do
  let next ← peek
  if next = .textEnd then return none
  let root ←
    if next ≠ .documentEnd && isApart next then do
      heading fuel
      if isApart (← peek) then pure missing else node .block fuel mostLevels
    else node .block fuel mostLevels
  ending fuel
  return root

/-- The only document of a list of tokens, if there is one. `fault` is what is wrong after the last token. -/
def ofTokens (tokens : List Token) (fault : Malformed) : Except Malformed (Option Node) :=
  (document (2 * tokens.length + 4)).run' { tokens, fault, handles := usualHandles }

end Node

end UserScripts.Yaml
