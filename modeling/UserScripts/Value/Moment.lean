import UserScripts.Text.Scan

/-!
# Moments

Dates, with or without a time of day, as a configuration file can hold them. A text has the form of a moment independently of
whether there is such a day, and only moments that exist are values.
-/

namespace UserScripts

/-- A time of day. -/
structure Clock where
  hour : Nat
  minute : Nat
  second : Nat
  /-- The decimal digits of the fraction of a second. -/
  fraction : List Char := []
  /-- How many minutes the time is ahead of the universal time. -/
  zone : Option Int := none
deriving DecidableEq, Repr

/-- Whether there is such a time of day; a zone is less than a day away. -/
def Clock.isValid (c : Clock) : Bool :=
  c.hour < 24 && c.minute < 60 && c.second < 60 && c.zone.all fun z => z.natAbs < 24 * 60

/-- A date, perhaps with a time of day. -/
structure Moment where
  year : Nat
  month : Nat
  day : Nat
  clock : Option Clock := none
deriving DecidableEq, Repr

namespace Moment

/-- The number that the digits of a part of a moment are. -/
def number (digits : List Char) : Nat :=
  Text.natOfDigits digits

/-- Reads between `least` and `most` digits, as many as there are. -/
def digits? (least most : Nat) (s : List Char) : Option (Nat × List Char) :=
  let digits := (s.take most).takeWhile Char.isDigit
  if digits.length < least then none else some (number digits, s.drop digits.length)

/-- What follows a character that has to be there. -/
def past? (c : Char) : List Char → Option (List Char)
  | [] => none
  | d :: s => if d = c then some s else none

/-- What follows the blanks. -/
def dropBlanks (s : List Char) : List Char :=
  s.dropWhile fun c => c == ' ' || c == '\t'

/-- Reads the zone at the end of a time: nothing, `Z`, or hours and perhaps minutes with a sign. -/
def zone? (s : List Char) : Option (Option Int) :=
  match s, dropBlanks s with
  | [], _ => some none
  | _, ['Z'] => some (some 0)
  | _, sign :: s =>
    if sign = '+' || sign = '-' then do
      let (hours, s) ← digits? 1 2 s
      let minutes ← match s with
        | [] => some 0
        | _ => do
          let (minutes, rest) ← digits? 2 2 (← past? ':' s)
          if rest.isEmpty then some minutes else none
      let offset : Int := (60 * hours + minutes : Nat)
      return some (if sign = '-' then -offset else offset)
    else none
  | _, [] => none

/-- Reads a time of day up to the end of the text. -/
def clock? (s : List Char) : Option Clock := do
  let (hour, s) ← digits? 1 2 s
  let (minute, s) ← digits? 2 2 (← past? ':' s)
  let (second, s) ← digits? 2 2 (← past? ':' s)
  let (fraction, s) := match s with
    | '.' :: s => (s.takeWhile Char.isDigit, s.dropWhile Char.isDigit)
    | _ => ([], s)
  return { hour, minute, second, fraction, zone := ← zone? s }

/-- Reads what follows a date: nothing, or a letter or blanks and a time of day. -/
def afterDate? : List Char → Option (Option Clock)
  | [] => some none
  | c :: s =>
    if c = 'T' || c = 't' then (clock? s).map some
    else if c = ' ' || c = '\t' then (clock? (dropBlanks s)).map some
    else none

/-- The moment of which a text has the form. -/
def ofText? (s : List Char) : Option Moment := do
  let (year, s) ← digits? 4 4 s
  let (month, s) ← digits? 1 2 (← past? '-' s)
  let (day, s) ← digits? 1 2 (← past? '-' s)
  return { year, month, day, clock := ← afterDate? s }

/-- Whether a text without a kind of its own is taken for a moment: a date alone has to have all its digits. -/
def isForm (s : List Char) : Bool :=
  match ofText? s with
  | some m => m.clock.isSome || s.length == 10
  | none => false

/-- Whether a year has a leap day. -/
def isLeap (year : Nat) : Bool :=
  year % 4 == 0 && (year % 100 != 0 || year % 400 == 0)

/-- The number of days of a month. -/
def daysIn (year month : Nat) : Nat :=
  if month == 2 then if isLeap year then 29 else 28
  else if [4, 6, 9, 11].contains month then 30 else 31

/-- Whether there is such a moment. -/
def isValid (m : Moment) : Bool :=
  1 ≤ m.year && 1 ≤ m.month && m.month ≤ 12 && 1 ≤ m.day && m.day ≤ daysIn m.year m.month && m.clock.all Clock.isValid

/-- A number in decimal, filled up with zeros to a width. -/
def padded (width n : Nat) : List Char :=
  let digits := Nat.toDigits 10 n
  List.replicate (width - digits.length) '0' ++ digits

/-- The date of a moment in text. -/
def toText (m : Moment) : String :=
  String.ofList (padded 4 m.year ++ '-' :: padded 2 m.month ++ '-' :: padded 2 m.day)

end Moment

end UserScripts
