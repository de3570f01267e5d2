import UserScripts.Text.Percent
import UserScripts.Value.Basic

/-!
# JSON

Reading of values and writing of strings. The names in a wrapper are JSON strings, and the value of a `key=value` setting is
JSON if it can be read as such. Numbers too large for a fraction are infinite, and infinity and the undefined number are words.
-/

namespace UserScripts.Json

open UserScripts.Text

/-- The code unit of four hexadecimal digits. -/
def codeUnit? (a b c d : Char) : Option Nat := do
  let a ← hexDigit? a
  let b ← hexDigit? b
  let c ← hexDigit? c
  let d ← hexDigit? d
  return 4096 * a + 256 * b + 16 * c + d

/-- The character behind a backslash escape of one letter. -/
def shortEscape? : Char → Option Char
  | '"' => some '"'
  | '\\' => some '\\'
  | '/' => some '/'
  | 'b' => some '\x08'
  | 'f' => some '\x0c'
  | 'n' => some '\n'
  | 'r' => some '\r'
  | 't' => some '\t'
  | _ => none

/-- The code units of a string up to its closing quote, and what follows the quote. Control characters have to be escaped. -/
def stringUnits : List Char → Option (List Nat × List Char)
  | [] => none
  | '"' :: rest => some ([], rest)
  | '\\' :: 'u' :: a :: b :: c :: d :: rest => do
    let unit ← codeUnit? a b c d
    let (units, rest) ← stringUnits rest
    return (unit :: units, rest)
  | '\\' :: c :: rest => do
    let c ← shortEscape? c
    let (units, rest) ← stringUnits rest
    return (c.toNat :: units, rest)
  | c :: rest =>
    if c.toNat < 0x20 || c = '\\' then none
    else do
      let (units, rest) ← stringUnits rest
      return (c.toNat :: units, rest)

/-- The characters of a list of code units; two surrogates in their order are one character. A surrogate that stands alone is no
character of a text here, and the replacement character stands for it: notations that differ only in such surrogates are read as the
same text, which a reader that keeps them as code units tells apart. -/
def unitsText : List Nat → List Char
  | [] => []
  | [n] => [if 0xD800 ≤ n && n ≤ 0xDFFF then replacement else Char.ofNat n]
  | n :: m :: rest =>
    if 0xD800 ≤ n && n ≤ 0xDBFF && 0xDC00 ≤ m && m ≤ 0xDFFF then
      Char.ofNat (0x10000 + 0x400 * (n - 0xD800) + (m - 0xDC00)) :: unitsText rest
    else (if 0xD800 ≤ n && n ≤ 0xDFFF then replacement else Char.ofNat n) :: unitsText (m :: rest)

/-- Reads a string after its opening quote. -/
def stringBody? (s : List Char) : Option (String × List Char) :=
  (stringUnits s).map fun (units, rest) => (String.ofList (unitsText units), rest)

/-- The string that a whole text is the notation of. -/
def string? (s : List Char) : Option String :=
  match s with
  | '"' :: body =>
    match stringBody? body with
    | some (text, []) => some text
    | _ => none
  | _ => none

/-- Why a text is not read. -/
inductive Fault where
  | malformed
  /-- An integer has more digits than are accepted. -/
  | tooLong
  /-- Lists and maps are nested deeper than is accepted. -/
  | tooDeep
deriving DecidableEq, Repr

/-- How much is accepted. -/
structure Limits where
  /-- The most digits of an integer. -/
  digits : Nat
  /-- The most levels of lists and maps. -/
  levels : Nat
deriving DecidableEq, Repr

/-- The limits for texts that come from a user. -/
def Limits.usual : Limits :=
  { digits := 4300, levels := 980 }

/-- Limits that a text does not reach. -/
def Limits.above (s : List Char) : Limits :=
  { digits := s.length, levels := s.length }

/-- Reads an exponent: a letter, an optional sign, and digits. -/
def exponent? : List Char → Option (Int × List Char)
  | e :: s =>
    if e = 'e' || e = 'E' then
      let (sign, s) : Int × List Char := match s with
        | '-' :: r => (-1, r)
        | '+' :: r => (1, r)
        | _ => (1, s)
      let digits := s.takeWhile Char.isDigit
      if digits.isEmpty then none else some (sign * natOfDigits digits, s.dropWhile Char.isDigit)
    else none
  | [] => none

/-- Reads a number after its sign. It is an integer if it has neither a fraction nor an exponent. -/
def unsigned (limits : Limits) (negative : Bool) (s : List Char) : Except Fault (Value × List Char) :=
  let whole := match s with
    | '0' :: _ => ['0']
    | _ => s.takeWhile Char.isDigit
  if whole.isEmpty then .error .malformed
  else
    let s := s.drop whole.length
    let fraction := match s with
      | '.' :: r => r.takeWhile Char.isDigit
      | _ => []
    let s := if fraction.isEmpty then s else s.drop (fraction.length + 1)
    let digits := natOfDigits (whole ++ fraction)
    match exponent? s with
    | some (power, s) => .ok (.float (Binary64.ofDecimal negative digits (power - fraction.length)), s)
    | none =>
      if !fraction.isEmpty then .ok (.float (Binary64.ofDecimal negative digits (-fraction.length)), s)
      else if limits.digits < whole.length then .error .tooLong
      else .ok (.int (if negative then -(digits : Int) else digits), s)

/-- The words that are values, with what they stand for. -/
def words : List (String × Value) :=
  [("null", .null), ("true", .bool true), ("false", .bool false), ("NaN", .float .undefined),
    ("Infinity", .float (.infinite false)), ("-Infinity", .float (.infinite true))]

/-- Reads a word or a number. -/
def simple (limits : Limits) (s : List Char) : Except Fault (Value × List Char) :=
  match words.findSome? fun (word, value) => (after? word.toList s).map (value, ·) with
  | some result => .ok result
  | none =>
    match s with
    | '-' :: s => unsigned limits true s
    | _ => unsigned limits false s

/-- What follows the white space of the format. -/
def dropSpace (s : List Char) : List Char :=
  s.dropWhile fun c => c == ' ' || c == '\t' || c == '\n' || c == '\r'

mutual

/-- Reads a value that starts right here, with at most `levels` lists and maps around one another. -/
def value (limits : Limits) : (fuel levels : Nat) → List Char → Except Fault (Value × List Char)
  | 0, _, _ => .error .malformed
  | fuel + 1, levels, s =>
    match s, levels with
    | '"' :: body, _ =>
      match stringBody? body with
      | some (text, rest) => .ok (.text text, rest)
      | none => .error .malformed
    | '[' :: _, 0 => .error .tooDeep
    | '\x7b' :: _, 0 => .error .tooDeep
    | '[' :: rest, levels + 1 =>
      match dropSpace rest with
      | ']' :: rest => .ok (.list [], rest)
      | rest => (items limits fuel levels rest).map fun (items, rest) => (.list items, rest)
    | '\x7b' :: rest, levels + 1 =>
      match dropSpace rest with
      | '\x7d' :: rest => .ok (.map [], rest)
      | rest => (members limits fuel levels rest).map fun (members, rest) => (.map (Keyed.ofPairs members), rest)
    | _, _ => simple limits s

/-- Reads the items of a list up to its closing bracket. -/
def items (limits : Limits) : (fuel levels : Nat) → List Char → Except Fault (List Value × List Char)
  | 0, _, _ => .error .malformed
  | fuel + 1, levels, s => do
    let (item, rest) ← value limits fuel levels s
    match dropSpace rest with
    | ']' :: rest => return ([item], rest)
    | ',' :: rest =>
      let (items, rest) ← items limits fuel levels (dropSpace rest)
      return (item :: items, rest)
    | _ => throw .malformed

/-- Reads the members of a map up to its closing brace. -/
def members (limits : Limits) : (fuel levels : Nat) → List Char → Except Fault (List (Key × Value) × List Char)
  | 0, _, _ => .error .malformed
  | fuel + 1, levels, s =>
    match s with
    | '"' :: body =>
      match stringBody? body with
      | none => .error .malformed
      | some (key, rest) =>
        match dropSpace rest with
        | ':' :: rest => do
          let (value, rest) ← value limits fuel levels (dropSpace rest)
          match dropSpace rest with
          | '\x7d' :: rest => return ([(.text key, value)], rest)
          | ',' :: rest =>
            let (members, rest) ← members limits fuel levels (dropSpace rest)
            return ((.text key, value) :: members, rest)
          | _ => throw .malformed
        | _ => .error .malformed
    | _ => .error .malformed

end

/-- The value that a whole text is the notation of, within limits. -/
def read (limits : Limits) (s : List Char) : Except Fault Value := do
  let (value, rest) ← value limits (s.length + 1) limits.levels (dropSpace s)
  if (dropSpace rest).isEmpty then return value else throw .malformed

/-- The value that a whole text is the notation of. -/
def ofText? (s : List Char) : Option Value :=
  (read (Limits.above s) s).toOption

/-- The digit of a number below sixteen. -/
def hexChar (n : Nat) : Char :=
  Nat.digitChar n

/-- How a character is written inside a string: quote, backslash and control characters are escaped, and nothing else. -/
def quotedChar (c : Char) : List Char :=
  if c = '"' then ['\\', '"']
  else if c = '\\' then ['\\', '\\']
  else if c = '\n' then ['\\', 'n']
  else if c = '\r' then ['\\', 'r']
  else if c = '\t' then ['\\', 't']
  else if c = '\x08' then ['\\', 'b']
  else if c = '\x0c' then ['\\', 'f']
  else if c.toNat < 0x20 then ['\\', 'u', '0', '0', hexChar (c.toNat / 16), hexChar (c.toNat % 16)]
  else [c]

/-- The notation of a string. -/
def quote (s : String) : String :=
  String.ofList ('"' :: s.toList.flatMap quotedChar ++ ['"'])

end UserScripts.Json
