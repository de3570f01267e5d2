import UserScripts.Text.Blank
import UserScripts.Url.Address

/-!
# URLs

The parts of a URL that a script reference is judged by: its host, its path and its query. Splitting fails only for a host that
no URL can have.
-/

namespace UserScripts

open UserScripts.Text

/-- A URL in parts. Everything is kept as it was written, apart from the scheme and the fragment, which are not kept. -/
structure Url where
  authority : List Char
  path : List Char
  query : List Char
deriving DecidableEq, Repr

namespace Url

/-- The reason why a text is no URL: its host has stray brackets, or letters that stand for punctuation of a URL. -/
inductive Malformed where
  | host
deriving DecidableEq, Repr

/-- The characters beyond ASCII that are compatible with a text holding a slash, a question mark, a number sign, an at sign or
a colon. -/
def disguisedMarks : List Nat :=
  [0x2047, 0x2048, 0x2049, 0x2100, 0x2101, 0x2105, 0x2106, 0x2A74, 0xFE13, 0xFE16, 0xFE55, 0xFE56, 0xFE5F, 0xFE6B, 0xFF03,
    0xFF0F, 0xFF1A, 0xFF1F, 0xFF20]

/-- Whether a character can stand in a scheme. -/
def isSchemeChar (c : Char) : Bool :=
  c.isAlphanum || c == '+' || c == '-' || c == '.'

/-- What follows the scheme, if there is one. -/
def dropScheme (s : List Char) : List Char :=
  match s with
  | [] => []
  | c :: _ =>
    match cutAt? ':' s with
    | some (scheme, rest) => if c.isAlpha && scheme.all isSchemeChar then rest else s
    | none => s

/-- Host and port: what follows the last at sign. -/
def hostPort (authority : List Char) : List Char :=
  (authority.reverse.takeWhile (· != '@')).reverse

/-- Whether the brackets of an authority enclose an address, with nothing before them and at most a port after them. -/
def bracketsOk (authority : List Char) : Bool :=
  if !authority.contains '[' && !authority.contains ']' then true
  else if !(authority.contains '[' && authority.contains ']') then false
  else
    let place := hostPort authority
    match cutAt? '[' place with
    | some (before, inside) =>
      let host := inside.takeWhile (· != ']')
      let port := (inside.dropWhile (· != ']')).drop 1
      before.isEmpty && (port.isEmpty || port.head? == some ':') && bracketable host
    | none => bracketable (place.takeWhile (· != ':'))

/-- The parts of a URL. Control characters before it are ignored, and tabs and line breaks wherever they stand. -/
def split (text : List Char) : Except Malformed Url :=
  let clean := (text.dropWhile fun c => c.toNat ≤ 0x20).filter fun c => !(c == '\t' || c == '\r' || c == '\n')
  let rest := dropScheme clean
  let isDelimiter := fun c => c == '/' || c == '?' || c == '#'
  let (authority, rest) := match rest with
    | '/' :: '/' :: r => (r.takeWhile (!isDelimiter ·), r.dropWhile (!isDelimiter ·))
    | _ => ([], rest)
  if !bracketsOk authority then .error .host
  else if authority.any fun c => disguisedMarks.contains c.toNat then .error .host
  else
    let beforeFragment := rest.takeWhile (· != '#')
    .ok { authority, path := beforeFragment.takeWhile (· != '?'),
          query := (beforeFragment.dropWhile (· != '?')).drop 1 }

/-- The host in lower case, without user and port. A zone after a percent sign keeps its case. -/
def host (u : Url) : String :=
  let place := hostPort u.authority
  let name := match cutAt? '[' place with
    | some (_, inside) => inside.takeWhile (· != ']')
    | none => place.takeWhile (· != ':')
  lower (String.ofList (name.takeWhile (· != '%'))) ++ String.ofList (name.dropWhile (· != '%'))

/-- The text of a query value, in which a plus sign stands for a blank. -/
def queryText (s : List Char) : List Char :=
  percentDecode (s.map fun c => if c = '+' then ' ' else c)

/-- The first value of the named query parameter that is not empty. -/
def parameter? (u : Url) (name : String) : Option String :=
  (splitOn '&' u.query).findSome? fun field =>
    match cutAt? '=' field with
    | some (key, value) =>
      if queryText key = name.toList && !value.isEmpty then some (String.ofList (queryText value)) else none
    | none => none

end Url

end UserScripts
