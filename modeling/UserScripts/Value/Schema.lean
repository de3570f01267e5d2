import UserScripts.Text.Blank
import UserScripts.Text.Case
import UserScripts.Value.Json

/-!
# Checked fields

Configuration values and the fields of an entry arrive as values of any kind and are checked field by field. All faults of a
record are found, not only the first one, and each is reported with the path to its field.
-/

namespace UserScripts

/-- A rule that the fields of a record have to keep together. -/
inductive Rule where
  /-- An entry loads either a page or a URL. -/
  | pageOrUrl
  /-- An entry names a wiki only for a page. -/
  | wikiOfPage
  /-- An edit either replaces the text or appends to it. -/
  | textOrAppended
deriving DecidableEq, Repr

/-- The wording of a rule. -/
def Rule.message : Rule → String
  | .pageOrUrl => "Exactly one of page and url must be set"
  | .wikiOfPage => "A source wiki can only be set together with a page"
  | .textOrAppended => "Exactly one of text and appendtext must be set"

/-- What is wrong with the value of a field. -/
inductive Fault where
  | notText
  | notInt
  | unreadableInt
  | fractionalInt
  | tooLargeInt
  /-- A number is infinite or undefined. -/
  | notFinite
  | notBool
  | unreadableBool
  | notList
  | notMap
  | notRecord
  | missing
  /-- A field of a record has a name that is no text. -/
  | unnamed
  | broken (rule : Rule)
deriving DecidableEq, Repr

/-- A fault and the path to its field, through names and positions; the path is empty for a rule about the whole record. -/
structure Issue where
  path : List Key
  fault : Fault
deriving DecidableEq, Repr

/-- The outcome of checking: a value, or everything that is wrong. -/
inductive Checked (α : Type) where
  | valid (value : α)
  | invalid (issues : List Issue)
deriving Repr

namespace Checked

variable {α β : Type}

/-- The value if it is valid. -/
def value? : Checked α → Option α
  | .valid a => some a
  | .invalid _ => none

/-- A single fault of the value itself. -/
def fail (fault : Fault) : Checked α :=
  .invalid [⟨[], fault⟩]

/-- The outcome for the part of a record under a name. -/
def under (name : Key) : Checked α → Checked α
  | .valid a => .valid a
  | .invalid issues => .invalid (issues.map fun i => { i with path := name :: i.path })

/-- The outcomes of two parts; the issues of both are kept. -/
def both (f : Checked (α → β)) (a : Checked α) : Checked β :=
  match f, a with
  | .valid f, .valid a => .valid (f a)
  | .valid _, .invalid js => .invalid js
  | .invalid is, .valid _ => .invalid is
  | .invalid is, .invalid js => .invalid (is ++ js)

instance : Applicative Checked where
  pure := .valid
  seq f a := both f (a ())

/-- The outcomes of a list of parts. -/
def all : List (Checked α) → Checked (List α)
  | [] => .valid []
  | a :: rest => both (both (.valid List.cons) a) (all rest)

end Checked

namespace Schema

/-- A text. Nothing else is turned into one. -/
def text : Value → Checked String
  | .text s => .valid s
  | _ => .fail .notText

/-- A text, or null for none. -/
def textOrNull : Value → Checked (Option String)
  | .text s => .valid (some s)
  | .null => .valid none
  | _ => .fail .notText

/-- The integer that a plain numeral stands for: an optional minus sign and digits, however many of them are zeros. -/
def numeral? (s : List Char) : Option Int :=
  let (negative, digits) := match s with
    | '-' :: r => (true, r)
    | _ => (false, s)
  if digits.isEmpty || !digits.all Char.isDigit then none
  else
    let n : Int := Text.natOfDigits digits
    some (if negative then -n else n)

/-- What is left after the zeros at the start of a numeral, between which low lines may stand. A zero that ends the numeral or
stands before the point is left, and `last` is the character before the rest. -/
def afterZeros? (last : Char) : List Char → Option (List Char)
  | [] => some [last]
  | c :: s =>
    if c = '0' || c = '_' then afterZeros? c s
    else if c = '.' then some (last :: c :: s)
    else if c.isDigit || c = '-' then some (c :: s)
    else none

/-- A numeral without the zeros at its start. -/
def withoutZeros? : List Char → Option (List Char)
  | [] => none
  | c :: s => if c = '0' then afterZeros? c s else if c.isDigit || c = '-' then some (c :: s) else none

/-- A numeral without its plus sign, after which no minus sign may come. -/
def withoutPlus? : List Char → Option (List Char)
  | '+' :: '-' :: _ => none
  | '+' :: s => some s
  | s => some s

/-- A numeral without a point and the zeros after it. -/
def withoutFraction (s : List Char) : List Char :=
  match s.dropWhile (· != '.') with
  | '.' :: '0' :: zeros => if zeros.all (· == '0') then s.takeWhile (· != '.') else s
  | _ => s

/-- Whether low lines stand one by one between other characters. -/
def isGrouped (s : List Char) : Bool :=
  s.head? != some '_' && s.getLast? != some '_' && !(s.zip s.tail).contains ('_', '_')

/-- A numeral without the low lines between its digits. -/
def withoutGroups (s : List Char) : List Char :=
  if isGrouped s then s.filter (· != '_') else s

/-- The integer that a text stands for: a numeral between white space, which may have a plus sign, more zeros at its start or
after its minus sign, a fraction of zeros, and low lines between its digits. -/
def intOfText (s : String) : Checked Int :=
  match (withoutPlus? (Text.trimWhite s.toList)).bind withoutZeros? with
  | none => .fail .unreadableInt
  | some rest =>
    let digits := withoutGroups (withoutFraction rest)
    match numeral? digits with
    | none => .fail .unreadableInt
    | some n => if Json.Limits.usual.digits < digits.length then .fail .tooLargeInt else .valid n

/-- Whether an integer fits into a word of 64 bits. -/
def fitsWord (n : Int) : Bool :=
  -0x8000000000000000 ≤ n && n < 0x8000000000000000

/-- The integer that a number without fraction is, unless its magnitude takes more than 63 bits. -/
def intOfFloat (x : Binary64) : Checked Int :=
  match x with
  | .finite _ _ _ =>
    match x.toInt? with
    | some n => if n.natAbs < 0x8000000000000000 then .valid n else .fail .tooLargeInt
    | none => .fail .fractionalInt
  | _ => .fail .notFinite

/-- An integer. Truth values count as one and zero, numbers without fraction as the integer they are, and texts as the numeral
they hold. -/
def int : Value → Checked Int
  | .int n => .valid n
  | .bool b => .valid (if b then 1 else 0)
  | .float x => intOfFloat x
  | .text s => intOfText s
  | _ => .fail .notInt

/-- The words for true and for false. -/
def truthWord? (s : String) : Option Bool :=
  let word := String.ofList (s.toList.map fun c => if c.isUpper then Text.lowerChar c else c)
  if ["1", "on", "t", "true", "y", "yes"].contains word then some true
  else if ["0", "off", "f", "false", "n", "no"].contains word then some false
  else none

/-- The truth value of a number: zero and one have one. -/
def truthOfInt (n : Int) : Checked Bool :=
  if n = 0 then .valid false else if n = 1 then .valid true else .fail .unreadableBool

/-- A truth value, zero, one, or a word for true or false in any case. Numbers of more than 64 bits are not considered. -/
def bool : Value → Checked Bool
  | .bool b => .valid b
  | .int n => if fitsWord n then truthOfInt n else .fail .notBool
  | .float x =>
    match intOfFloat x with
    | .valid n => truthOfInt n
    | .invalid _ => .fail .notBool
  | .text s =>
    match truthWord? s with
    | some b => .valid b
    | none => .fail .unreadableBool
  | _ => .fail .notBool

/-- A list of values of one kind; the path of an item is its position. -/
def listOf (item : Value → Checked α) : Value → Checked (List α)
  | .list items => Checked.all (items.mapIdx fun i v => (item v).under (.int i))
  | _ => .fail .notList

/-- A name, which is the key of a value in a map. -/
def name : Key → Checked String
  | .text s => .valid s
  | key => .invalid [⟨[key, "[key]"], .notText⟩]

/-- A map from names to values of one kind. -/
def mapOf (item : Value → Checked α) : Value → Checked (Keyed String α)
  | .map fields => Checked.all (fields.map fun (key, v) => Prod.mk <$> name key <*> (item v).under key)
  | _ => .fail .notMap

/-- A record within a record. -/
def record (read : Fields → Checked α) : Value → Checked α
  | .map fields => read fields
  | _ => .fail .notRecord

/-- A field that holds `default` if it is not given. -/
def field (fields : Fields) (name : Key) (read : Value → Checked α) (default : α) : Checked α :=
  match Keyed.get? fields name with
  | some v => (read v).under name
  | none => .valid default

/-- A field that has to be given. -/
def required (fields : Fields) (name : Key) (read : Value → Checked α) : Checked α :=
  match Keyed.get? fields name with
  | some v => (read v).under name
  | none => (Checked.fail .missing : Checked α).under name

end Schema

end UserScripts
