import UserScripts.Proofs.Text.Escape
import UserScripts.Text.Percent

/-!
# How an engine reads a literal

A reader of single-quoted script literals, written from the rules of the script language and not from the escapes that this
library writes: all escape sequences, line continuations and the strict rule on digits after a backslash are there, and a line
break that is not escaped ends nothing but makes the literal invalid. A literal stands for UTF-16 units. Main statement:
`read_toLiteral`, the written contents of a literal are read up to their end and stand for the text.
-/

namespace UserScripts.ScriptLiteral

open UserScripts.Text

/-- The UTF-16 units of a code point. -/
def codeUnits (n : Nat) : List UInt16 :=
  if n < 0x10000 then [n.toUInt16]
  else [(0xD800 + (n - 0x10000) / 0x400).toUInt16, (0xDC00 + (n - 0x10000) % 0x400).toUInt16]

/-- The UTF-16 units of a text. -/
def utf16 (s : List Char) : List UInt16 :=
  s.flatMap fun c => codeUnits c.toNat

/-- Where a reader stands inside a literal. -/
inductive Place where
  /-- Between two characters of the value; `continued` says that a line continuation has just ended with a carriage return. -/
  | between (continued : Bool)
  /-- After a backslash. -/
  | escape
  /-- After a backslash and `u`. -/
  | unicode
  /-- Inside an escape of a fixed number of digits. -/
  | digits (missing value : Nat)
  /-- Inside the braces of a Unicode escape; there is no value before the first digit. -/
  | braces (value : Option Nat)
deriving DecidableEq, Repr

/-- What a letter after a backslash stands for, if it is one of those with a meaning of their own. -/
def controlOf (c : Char) : Nat :=
  if c = 'b' then 8 else if c = 't' then 9 else if c = 'n' then 10 else if c = 'v' then 11 else if c = 'f' then 12
  else if c = 'r' then 13 else c.toNat

/-- Whether digits follow. -/
def digitAhead : List Char → Bool
  | [] => false
  | c :: _ => c.isDigit

/-- Puts units before the value of a literal. -/
def prepend (units : List UInt16) (result : Option (List UInt16 × List Char)) : Option (List UInt16 × List Char) :=
  result.map fun (value, rest) => (units ++ value, rest)

/-- Reads a single-quoted literal from a place inside it up to its closing quote: the units it stands for, and what follows. -/
def readFrom : Place → List Char → Option (List UInt16 × List Char)
  | _, [] => none
  | .between continued, c :: s =>
    if c = '\'' then some ([], s)
    else if c = '\\' then readFrom .escape s
    else if continued && c = '\n' then readFrom (.between false) s
    else if isLineBreak c then none
    else prepend (codeUnits c.toNat) (readFrom (.between false) s)
  | .escape, c :: s =>
    if c = 'u' then readFrom .unicode s
    else if c = 'x' then readFrom (.digits 2 0) s
    else if c = '0' then if digitAhead s then none else prepend [0] (readFrom (.between false) s)
    else if c.isDigit then none
    else if isLineBreak c then readFrom (.between (c = '\r')) s
    else prepend (codeUnits (controlOf c)) (readFrom (.between false) s)
  | .unicode, c :: s =>
    if c = '\x7b' then readFrom (.braces none) s
    else match hexDigit? c with
      | some d => readFrom (.digits 3 d) s
      | none => none
  | .digits missing value, c :: s =>
    match hexDigit? c with
    | some d =>
      if missing ≤ 1 then prepend (codeUnits (16 * value + d)) (readFrom (.between false) s)
      else readFrom (.digits (missing - 1) (16 * value + d)) s
    | none => none
  | .braces value, c :: s =>
    match hexDigit? c, value with
    | some d, _ => if 16 * value.getD 0 + d ≤ 0x10FFFF then readFrom (.braces (some (16 * value.getD 0 + d))) s else none
    | none, some n => if c = '\x7d' then prepend (codeUnits n) (readFrom (.between false) s) else none
    | none, none => none

/-- Reads a single-quoted literal from after its opening quote. -/
def read (s : List Char) : Option (List UInt16 × List Char) :=
  readFrom (.between false) s

/-- A quote closes the literal. -/
theorem read_quote (s : List Char) : read ('\'' :: s) = some ([], s) := rfl

/-- A character that needs no escape stands for itself. -/
theorem read_plain {c : Char} (h : isLiteralPlain c = true) (s : List Char) :
    read (c :: s) = prepend (codeUnits c.toNat) (read s) := by
  simp only [isLiteralPlain, Bool.and_eq_true, bne_iff_ne, Bool.not_eq_true'] at h
  obtain ⟨⟨hb, hq⟩, hl⟩ := h
  simp [read, readFrom, hb, hq, hl]

/-- Every written character is read as that character. -/
theorem read_literalChar (c : Char) (s : List Char) :
    read (literalChar c ++ s) = prepend (codeUnits c.toNat) (read s) := by
  by_cases h : isLiteralPlain c = true
  · rw [literalChar_of_plain h, List.singleton_append, read_plain h]
  · rcases not_isLiteralPlain h with rfl | rfl | rfl | rfl | rfl | rfl <;> rfl

/-- The written contents of a literal end at the quote that is put after them, no earlier, and stand for the text. -/
theorem read_toLiteral (s rest : List Char) : read (toLiteral s ++ '\'' :: rest) = some (utf16 s, rest) := by
  induction s with
  | nil => exact read_quote rest
  | cons c s ih =>
    rw [toLiteral_cons, List.append_assoc, read_literalChar, ih]
    rfl

end UserScripts.ScriptLiteral
