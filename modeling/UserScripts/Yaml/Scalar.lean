import UserScripts.Value.Json
import UserScripts.Yaml.Basic

/-!
# Kinds of scalars

A plain scalar is taken for null, a truth value, a number or a moment if it has the form of one, and for a text otherwise.
The form decides the kind; that a scalar has the form of a number does not yet mean that there is such a number.
-/

namespace UserScripts.Yaml

/-- What a value is. -/
inductive Tag where
  | null
  | bool
  | int
  | float
  | text
  | moment
  | list
  | map
  /-- The key under which a map takes in the members of another one. -/
  | merge
  /-- The key under which a map holds what it stands for as a scalar. -/
  | default
  | set
  /-- A list of maps with one member each. -/
  | pairs
  | other (name : String)
deriving DecidableEq, Repr

/-- What the names of the tags of this language start with. -/
def tagStart : String := "tag:yaml.org,2002:"

/-- The tags of this language by their names. -/
def knownTags : List (String × Tag) :=
  [("null", .null), ("bool", .bool), ("int", .int), ("float", .float), ("str", .text), ("timestamp", .moment),
    ("seq", .list), ("map", .map), ("merge", .merge), ("value", .default), ("set", .set), ("pairs", .pairs),
    ("omap", .pairs)]

/-- The tag with a full name. -/
def Tag.ofName (name : String) : Tag :=
  (knownTags.findSome? fun (known, tag) => if tagStart ++ known = name then some tag else none).getD (.other name)

namespace Scalar

/-- The words for true and for false, each also with a capital and in capitals. -/
def truthWords : List String :=
  ["yes", "Yes", "YES", "true", "True", "TRUE", "on", "On", "ON",
    "no", "No", "NO", "false", "False", "FALSE", "off", "Off", "OFF"]

/-- The spellings of null. -/
def nullWords : List String :=
  ["", "~", "null", "Null", "NULL"]

/-- A text without its sign. -/
def unsigned (s : List Char) : List Char :=
  match s with
  | '-' :: r => r
  | '+' :: r => r
  | _ => s

/-- Whether all characters are digits below a base, or low lines. -/
def allDigits (base : Nat) (s : List Char) : Bool :=
  s.all fun c => c == '_' || (Text.hexDigit? c).any (· < base)

/-- Whether a text starts with a decimal digit and goes on with digits and low lines. -/
def isDecimal : List Char → Bool
  | [] => false
  | c :: s => c.isDigit && allDigits 10 s

/-- Whether a text is one or two digits, of which the first of two is below six. -/
def isSixtieth : List Char → Bool
  | [c] => c.isDigit
  | [c, d] => c.isDigit && c < '6' && d.isDigit
  | _ => false

/-- Whether a text without sign has the form of an integer: binary, octal, hexadecimal, decimal, or in base sixty. -/
def isUnsignedInt : List Char → Bool
  | ['0'] => true
  | '0' :: 'b' :: s => !s.isEmpty && allDigits 2 s
  | '0' :: 'x' :: s => !s.isEmpty && allDigits 16 s
  | '0' :: s => allDigits 8 s
  | s =>
    match Text.splitOn ':' s with
    | whole :: parts => isDecimal whole && parts.all isSixtieth
    | [] => false

/-- Whether a text has the form of an integer. -/
def isInt (s : List Char) : Bool :=
  isUnsignedInt (unsigned s)

/-- Whether an exponent or nothing is left: a letter, a sign and digits. -/
def isExponent : List Char → Bool
  | [] => true
  | e :: sign :: s => (e == 'e' || e == 'E') && (sign == '-' || sign == '+') && !s.isEmpty && s.all Char.isDigit
  | _ => false

/-- Whether a text is a fraction after its point, possibly with an exponent. -/
def isFraction (s : List Char) : Bool :=
  isExponent (s.dropWhile fun c => c.isDigit || c == '_')

/-- Whether a text has the form of a number with a point. A number that starts with the point has no sign. -/
def isDecimalFraction (s : List Char) : Bool :=
  match Text.cutAt? '.' s with
  | none => false
  | some ([], rest) => rest.head?.any Char.isDigit && isFraction rest
  | some (whole, rest) =>
    match Text.splitOn ':' (unsigned whole) with
    | [whole] => isDecimal whole && isFraction rest
    | whole :: parts => isDecimal whole && parts.all isSixtieth && allDigits 10 rest
    | [] => false

/-- Whether a text is a word for infinity, possibly with a sign. -/
def isInfinity (s : List Char) : Bool :=
  [".inf", ".Inf", ".INF"].contains (String.ofList (unsigned s))

/-- Whether a text is a word for the undefined number. -/
def isUndefined (s : List Char) : Bool :=
  [".nan", ".NaN", ".NAN"].contains (String.ofList s)

/-- Whether a text has the form of a number with a point, or is a word for one of the values beyond the numbers. -/
def isFloat (s : List Char) : Bool :=
  isDecimalFraction s || isInfinity s || isUndefined s

/-- The kind of a plain scalar. -/
def tagOf (text : String) : Tag :=
  let s := text.toList
  if truthWords.contains text then .bool
  else if nullWords.contains text then .null
  else if isFloat s then .float
  else if isInt s then .int
  else if text = "<<" then .merge
  else if text = "=" then .default
  else if Moment.isForm s then .moment
  else .text

/-- The truth value of a word in any case. -/
def bool (text : String) : Except Malformed Bool :=
  match Text.lower text with
  | "yes" => .ok true
  | "true" => .ok true
  | "on" => .ok true
  | "no" => .ok false
  | "false" => .ok false
  | "off" => .ok false
  | _ => .error .truth

/-- A sign taken off, if there is one: whether it is a minus sign, and the rest. -/
def sign : List Char → Bool × List Char
  | '-' :: s => (true, s)
  | '+' :: s => (false, s)
  | s => (false, s)

/-- The letter that marks digits in a base after a zero. -/
def baseMark? : Nat → Option Char
  | 2 => some 'b'
  | 8 => some 'o'
  | 16 => some 'x'
  | _ => none

/-- Digits in a base without the mark of the base, if they have it. -/
def withoutMark (base : Nat) (s : List Char) : List Char :=
  match s with
  | '0' :: c :: rest => if baseMark? base = some (Text.lowerChar c) then rest else s
  | _ => s

/-- The integer of digits in a base between white space. They may have a sign and the mark of the base. -/
def digits (base : Nat) (s : List Char) : Except Malformed Int :=
  let (negative, s) := sign (Text.trimWhite s)
  let s := withoutMark base s
  match s.mapM Text.hexDigit? with
  | some values =>
    let isTooLong := base = 10 && Json.Limits.usual.digits < values.length
    if values.isEmpty || !values.all (· < base) || isTooLong then .error .number
    else
      let n := values.foldl (fun n v => base * n + v) 0
      .ok (if negative then -(n : Int) else n)
  | none => .error .number

/-- The number of parts in base sixty, the last one of which counts one. -/
def sexagesimal (parts : List Int) : Int :=
  parts.foldl (fun n part => 60 * n + part) 0

/-- The integer of a text without sign and low lines. -/
def magnitude : List Char → Except Malformed Int
  | [] => .error .nothing
  | ['0'] => .ok 0
  | '0' :: 'b' :: s => digits 2 s
  | '0' :: 'x' :: s => digits 16 s
  | '0' :: s => digits 8 ('0' :: s)
  | s => ((Text.splitOn ':' s).mapM (digits 10)).map sexagesimal

/-- A text without its low lines, which has to have a character then. -/
def withoutGroups (text : String) : Except Malformed (List Char) :=
  match text.toList.filter (· != '_') with
  | [] => .error .nothing
  | s => .ok s

/-- The integer of a scalar. -/
def int (text : String) : Except Malformed Int := do
  let (negative, s) := sign (← withoutGroups text)
  let n ← magnitude s
  return if negative then -n else n

/-- The number of a decimal with or without a point and an exponent. -/
def fraction (s : List Char) : Except Malformed Binary64 :=
  let whole := s.takeWhile Char.isDigit
  let rest := s.drop whole.length
  let part := match rest with
    | '.' :: r => r.takeWhile Char.isDigit
    | _ => []
  let rest := match rest with
    | '.' :: r => r.drop part.length
    | _ => rest
  if whole.isEmpty && part.isEmpty then .error .number
  else
    let number := fun power : Int => Binary64.ofDecimal false (Text.natOfDigits (whole ++ part)) (power - part.length)
    match rest, Json.exponent? rest with
    | [], _ => .ok (number 0)
    | _, some (power, []) => .ok (number power)
    | _, _ => .error .number

/-- The words for the values beyond the numbers, in small letters. -/
def numberWords : List (String × Binary64) :=
  [("inf", .infinite false), ("infinity", .infinite false), ("nan", .undefined)]

/-- The number of a decimal or a word between white space, which may have a sign. -/
def number (s : List Char) : Except Malformed Binary64 := do
  let (negative, s) := sign (Text.trimWhite s)
  let x ← match numberWords.lookup (String.ofList s) with
    | some x => pure x
    | none => fraction s
  return if negative then x.negate else x

/-- The sum of parts in base sixty, each with the factor it counts, starting with the last part. -/
def sumOfParts (total : Binary64) (factor : Nat) : List Binary64 → Binary64
  | [] => total
  | part :: rest => sumOfParts (total.addMagnitudes (part.scaleMagnitude factor)) (60 * factor) rest

/-- The number of a scalar. -/
def float (text : String) : Except Malformed Binary64 := do
  let (negative, s) := sign (← withoutGroups (Text.lower text))
  let x ←
    if s = ".inf".toList then pure (.infinite false)
    else if s = ".nan".toList then pure .undefined
    else match Text.splitOn ':' s with
      | [s] => number s
      | parts => do
        let parts ← parts.mapM fraction
        pure (sumOfParts (Binary64.ofRatio false 0 1) 1 parts.reverse)
  return if negative then x.negate else x

/-- The moment of a scalar. -/
def moment (text : String) : Except Malformed Moment :=
  match Moment.ofText? text.toList with
  | none => .error .moment
  | some m => if m.isValid then .ok m else .error .number

end Scalar

end UserScripts.Yaml
