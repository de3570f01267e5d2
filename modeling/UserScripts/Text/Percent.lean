import UserScripts.Text.Scan

/-!
# Percent encoding

Page titles inside URLs are written with `%XX` for a byte. Decoding never fails: a percent sign without two hexadecimal digits
stays as it is, and bytes that are no UTF-8 become replacement characters.
-/

namespace UserScripts.Text

/-- The value of a hexadecimal digit. -/
def hexDigit? (c : Char) : Option Nat :=
  if '0' ≤ c && c ≤ '9' then some (c.toNat - 48)
  else if 'a' ≤ c && c ≤ 'f' then some (c.toNat - 87)
  else if 'A' ≤ c && c ≤ 'F' then some (c.toNat - 55)
  else none

/-- A byte to be read as UTF-8, or a character beyond ASCII that stands for itself. -/
inductive Unit8 where
  | byte (value : Nat)
  | char (value : Char)
deriving DecidableEq, Repr

/-- What a character stands for by itself. -/
def Unit8.ofChar (c : Char) : Unit8 :=
  if c.toNat < 0x80 then .byte c.toNat else .char c

/-- The units of a text in which `%XX` is a byte. -/
def percentUnits : List Char → List Unit8
  | [] => []
  | ['%', c] => [.byte 0x25, .ofChar c]
  | '%' :: a :: b :: s =>
    match hexDigit? a, hexDigit? b with
    | some x, some y => .byte (16 * x + y) :: percentUnits s
    | _, _ => .byte 0x25 :: percentUnits (a :: b :: s)
  | c :: s => .ofChar c :: percentUnits s

/-- A character of several bytes of which some are read: how many are missing, the range of the next one, and the bits so far. -/
structure Pending where
  missing : Nat
  low : Nat
  high : Nat
  bits : Nat

/-- The character that stands for bytes that are no UTF-8. -/
def replacement : Char := '\uFFFD'

/-- Reads the first byte of a character. -/
def firstByte (b : Nat) : List Char × Option Pending :=
  if b < 0x80 then ([Char.ofNat b], none)
  else if 0xC2 ≤ b && b ≤ 0xDF then ([], some ⟨1, 0x80, 0xBF, b - 0xC0⟩)
  else if 0xE0 ≤ b && b ≤ 0xEF then
    ([], some ⟨2, if b = 0xE0 then 0xA0 else 0x80, if b = 0xED then 0x9F else 0xBF, b - 0xE0⟩)
  else if 0xF0 ≤ b && b ≤ 0xF4 then
    ([], some ⟨3, if b = 0xF0 then 0x90 else 0x80, if b = 0xF4 then 0x8F else 0xBF, b - 0xF0⟩)
  else ([replacement], none)

/-- What is written for a character of which bytes are missing. -/
def cutShort : Option Pending → List Char
  | none => []
  | some _ => [replacement]

/-- Reads one unit. A byte that does not continue the pending character replaces it by one replacement character and is then
read on its own. -/
def readUnit (pending : Option Pending) : Unit8 → List Char × Option Pending
  | .char c => (cutShort pending ++ [c], none)
  | .byte b =>
    match pending with
    | none => firstByte b
    | some p =>
      if p.low ≤ b && b ≤ p.high then
        let bits := 64 * p.bits + (b - 0x80)
        if p.missing ≤ 1 then ([Char.ofNat bits], none) else ([], some ⟨p.missing - 1, 0x80, 0xBF, bits⟩)
      else (replacement :: (firstByte b).1, (firstByte b).2)

/-- The text of a list of units, given the character that is pending. -/
def unitsText (pending : Option Pending) : List Unit8 → List Char
  | [] => cutShort pending
  | u :: rest => (readUnit pending u).1 ++ unitsText (readUnit pending u).2 rest

/-- The text that a percent-encoded text stands for. -/
def percentDecode (s : List Char) : List Char :=
  unitsText none (percentUnits s)

end UserScripts.Text
