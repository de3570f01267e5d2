import UserScripts.Text.Percent
import UserScripts.Yaml.Basic

/-!
# Names, tags and directives

The parts of a document that say something about its values: anchors and aliases, tags, and the directives before a document.
-/

namespace UserScripts.Yaml.Property

/-- A tag as it is written. -/
structure TagName where
  /-- The handle that is short for the start of the tag; without one the tag is written in full. -/
  handle : Option String
  suffix : String
deriving DecidableEq, Repr

/-- A directive. -/
inductive Directive where
  | version (major : Nat)
  /-- What a handle is short for. -/
  | tag (handle start : String)
  | other
deriving DecidableEq, Repr

/-- Whether the name of an anchor can end here. -/
def nameEnds (s : List Char) : Bool :=
  gapHere s || s.head?.any fun c => "?:,]\x7d%@`".toList.contains c

/-- Reads the name of an anchor or an alias. -/
def name (s : List Char) : Except Malformed (String × List Char) :=
  let name := s.takeWhile isNameChar
  let rest := s.dropWhile isNameChar
  if name.isEmpty || !nameEnds rest then .error .token else .ok (String.ofList name, rest)

/-- Whether a character can stand in a tag. -/
def isTagChar (c : Char) : Bool :=
  c.isAlphanum || "-;/?:@&=+$,_.!~*'()[]%".toList.contains c

/-- The octets of a run of percent escapes, and what follows them. -/
def octets : (fuel : Nat) → List Char → Except Malformed (List UInt8 × List Char)
  | 0, s => .ok ([], s)
  | fuel + 1, '%' :: a :: b :: s =>
    match Text.hexDigit? a, Text.hexDigit? b with
    | some high, some low => (octets fuel s).map fun (more, rest) => (UInt8.ofNat (16 * high + low) :: more, rest)
    | _, _ => .error .token
  | _, '%' :: _ => .error .token
  | _, s => .ok ([], s)

/-- Decodes the percent escapes of a tag. -/
def unescape : (fuel : Nat) → List Char → Except Malformed (List Char)
  | 0, _ => .ok []
  | _, [] => .ok []
  | fuel + 1, c :: s =>
    if c = '%' then do
      let (octets, rest) ← octets (s.length + 1) (c :: s)
      match String.fromUTF8? ⟨octets.toArray⟩ with
      | some text => return text.toList ++ (← unescape fuel rest)
      | none => throw .token
    else (unescape fuel s).map (c :: ·)

/-- Reads the written characters of a tag. -/
def tagText (s : List Char) : Except Malformed (String × List Char) := do
  let written := s.takeWhile isTagChar
  if written.isEmpty then throw .token
  return (String.ofList (← unescape written.length written), s.drop written.length)

/-- Reads a handle: an exclamation mark, or a name between two of them. -/
def handle : List Char → Except Malformed (String × List Char)
  | '!' :: s =>
    if s.head? = some ' ' then .ok ("!", s)
    else match s.dropWhile isNameChar with
      | '!' :: rest => .ok (String.ofList ('!' :: s.takeWhile isNameChar ++ ['!']), rest)
      | _ => .error .token
  | _ => .error .token

/-- Reads a tag after its exclamation mark. -/
def tag (s : List Char) : Except Malformed (TagName × List Char) := do
  let (tag, rest) ← match s with
    | '<' :: s => do
      let (text, rest) ← tagText s
      match rest with
      | '>' :: rest => pure (⟨none, text⟩, rest)
      | _ => throw .token
    | _ =>
      if gapHere s then pure (⟨none, "!"⟩, s)
      else do
        let named := (s.takeWhile fun c => c != ' ' && !isBreak c).contains '!'
        let (handle, s) ← if named then handle ('!' :: s) else pure ("!", s)
        let (text, rest) ← tagText s
        pure (⟨some handle, text⟩, rest)
  if spaceOrEnd rest then return (tag, rest) else throw .token

/-- Reads a decimal number of a version. -/
def versionPart (s : List Char) : Except Malformed (Nat × List Char) :=
  let digits := s.takeWhile Char.isDigit
  if digits.isEmpty then .error .token
  else .ok (digits.foldl (fun n c => 10 * n + (c.toNat - 48)) 0, s.drop digits.length)

/-- Reads the version in a directive. -/
def version (s : List Char) : Except Malformed (Directive × List Char) := do
  let (major, s) ← versionPart (dropSpaces s)
  match s with
  | '.' :: s =>
    let (_, s) ← versionPart s
    if spaceOrEnd s then return (.version major, s) else throw .token
  | _ => throw .token

/-- Reads a handle in a directive and what it is short for. -/
def tagStart (s : List Char) : Except Malformed (Directive × List Char) := do
  let (handle, s) ← handle (dropSpaces s)
  if s.head? ≠ some ' ' then throw .token
  let (start, s) ← tagText (dropSpaces s)
  if spaceOrEnd s then return (.tag handle start, s) else throw .token

/-- Reads a directive after its percent sign, up to the end of its line. -/
def directive (s : List Char) : Except Malformed (Directive × List Char) := do
  let name := s.takeWhile isNameChar
  let rest := s.dropWhile isNameChar
  if name.isEmpty || !spaceOrEnd rest then throw .token
  let (directive, rest) ←
    if name = "YAML".toList then version rest
    else if name = "TAG".toList then tagStart rest
    else pure (.other, rest.dropWhile fun c => !isBreak c)
  return (directive, ← restOfLine rest)

end UserScripts.Yaml.Property
