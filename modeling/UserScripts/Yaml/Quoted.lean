import UserScripts.Value.Json
import UserScripts.Yaml.Basic

/-!
# Quoted scalars

Between single quotes every character stands for itself, and a quote is written twice; between double quotes a backslash
escapes. Line breaks are folded as in plain scalars, without the spaces on both sides, and a backslash at the end of a line
takes its break away.
-/

namespace UserScripts.Yaml.Quoted

/-- What has been read since the last character that is neither a space nor a line break. -/
inductive Pending where
  /-- Spaces and tabs, the last one first. -/
  | spaces (reversed : List Char)
  /-- Line breaks, the last one first, after a first one, which may have been escaped. -/
  | breaks (first : Option Char) (reversed : List Char)

namespace Pending

/-- Nothing has been read. -/
def none : Pending := .spaces []

/-- A further space. At the start of a line it counts for nothing. -/
def space (c : Char) : Pending → Pending
  | .spaces reversed => .spaces (c :: reversed)
  | .breaks first reversed => .breaks first reversed

/-- A further line break. Spaces before it count for nothing. -/
def line (c : Char) : Pending → Pending
  | .spaces _ => .breaks (some c) []
  | .breaks first reversed => .breaks first (c :: reversed)

/-- What it stands for. -/
def text : Pending → List Char
  | .spaces reversed => reversed.reverse
  | .breaks (some '\n') [] => [' ']
  | .breaks (some '\n') reversed => reversed.reverse
  | .breaks first reversed => first.toList ++ reversed.reverse

end Pending

/-- Reads a single-quoted scalar after its opening quote. -/
def single : Pending → List Char → Except Malformed (List Char × List Char)
  | _, [] => .error .token
  | pending, '\'' :: '\'' :: s => (single .none s).map fun (text, rest) => (pending.text ++ '\'' :: text, rest)
  | pending, '\'' :: s => .ok (pending.text, s)
  | pending, c :: s =>
    if isSpace c then single (pending.space c) s
    else if isBreak c then if separatorHere s then .error .token else single (pending.line c) s
    else (single .none s).map fun (text, rest) => (pending.text ++ c :: text, rest)

/-- The character behind a backslash escape of one letter. -/
def shortEscape? : Char → Option Char
  | '0' => some '\x00'
  | 'a' => some '\x07'
  | 'b' => some '\x08'
  | 't' => some '\t'
  | '\t' => some '\t'
  | 'n' => some '\n'
  | 'v' => some '\x0b'
  | 'f' => some '\x0c'
  | 'r' => some '\r'
  | 'e' => some '\x1b'
  | ' ' => some ' '
  | '"' => some '"'
  | '\\' => some '\\'
  | '/' => some '/'
  | 'N' => some '\u0085'
  | '_' => some '\u00a0'
  | 'L' => some '\u2028'
  | 'P' => some '\u2029'
  | _ => none

/-- The number of digits after an escape by code point. -/
def codeWidth? : Char → Option Nat
  | 'x' => some 2
  | 'u' => some 4
  | 'U' => some 8
  | _ => none

/-- The code point of hexadecimal digits. -/
def code (width : Nat) (s : List Char) : Except Malformed Nat :=
  match (s.take width).mapM Text.hexDigit? with
  | none => .error .token
  | some digits =>
    if digits.length < width then .error .token
    else
      let n := digits.foldl (fun n d => 16 * n + d) 0
      if n < 0x110000 then .ok n else .error .number

/-- The pending text in code units, with more of them after it. -/
def Pending.before (pending : Pending) (units : List Nat) : List Nat :=
  pending.text.map Char.toNat ++ units

/-- Reads a double-quoted scalar after its opening quote, in code units. The first `skip` characters are digits of an
escape that has been read. -/
def double : Pending → (skip : Nat) → List Char → Except Malformed (List Nat × List Char)
  | _, _, [] => .error .token
  | pending, skip + 1, _ :: s => double pending skip s
  | pending, 0, '"' :: s => .ok (pending.before [], s)
  | _, 0, ['\\'] => .error .token
  | pending, 0, '\\' :: c :: s =>
    if isBreak c then
      if separatorHere s then .error .token
      else (double (.breaks .none []) 0 s).map fun (units, rest) => (pending.before units, rest)
    else match shortEscape? c, codeWidth? c with
      | some c, _ => (double .none 0 s).map fun (units, rest) => (pending.before (c.toNat :: units), rest)
      | none, some width =>
        match code width s with
        | .ok unit => (double .none width s).map fun (units, rest) => (pending.before (unit :: units), rest)
        | .error e => .error e
      | none, none => .error .token
  | pending, 0, c :: s =>
    if isSpace c then double (pending.space c) 0 s
    else if isBreak c then if separatorHere s then .error .token else double (pending.line c) 0 s
    else (double .none 0 s).map fun (units, rest) => (pending.before (c.toNat :: units), rest)

/-- Reads a single-quoted scalar after its opening quote. -/
def readSingle (s : List Char) : Except Malformed (List Char × List Char) :=
  single .none s

/-- Reads a double-quoted scalar after its opening quote. -/
def readDouble (s : List Char) : Except Malformed (List Char × List Char) :=
  (double .none 0 s).map fun (units, rest) => (Json.unitsText units, rest)

end UserScripts.Yaml.Quoted
