import UserScripts.Keyed
import UserScripts.Number.Binary64
import UserScripts.Value.Moment

/-!
# Configuration values

The values that a configuration is made of before it is checked. A map keeps its keys in the order in which they first came;
its keys are texts as a rule, but a file can hold others.
-/

namespace UserScripts

/-- A key of a map. -/
inductive Key where
  | null
  | bool (value : Bool)
  | int (value : Int)
  | float (value : Binary64)
  | text (value : String)
  | moment (value : Moment)
deriving DecidableEq, Repr

instance : Coe String Key := ⟨Key.text⟩

namespace Key

/-- The text of a key. -/
def toText : Key → String
  | .null => "null"
  | .bool b => if b then "true" else "false"
  | .int n => toString n
  | .float x => x.toText
  | .text s => s
  | .moment m => m.toText

/-- Whether a key is a text. -/
def isText : Key → Bool
  | .text _ => true
  | _ => false

/-- The integer that a key stands for; true and false stand for one and zero. -/
def int? : Key → Option Int
  | .bool b => some (if b then 1 else 0)
  | .int n => some n
  | .float x => x.toInt?
  | _ => none

/-- Whether two keys are the same key of a map: they are equal or stand for the same integer. -/
def same (a b : Key) : Bool :=
  a == b || (a.int?.isSome && a.int? == b.int?)

end Key

/-- A value of a configuration layer. -/
inductive Value where
  | null
  | bool (value : Bool)
  | int (value : Int)
  | float (value : Binary64)
  | text (value : String)
  | moment (value : Moment)
  | list (items : List Value)
  | map (fields : List (Key × Value))
  /-- The mark of a field that leaves the layers below as they are. -/
  | unset
deriving Repr, Inhabited

/-- The fields of a map, in order. -/
abbrev Fields := Keyed Key Value

namespace Fields

/-- The value under a key. -/
def under? (key : Key) : Fields → Option Value
  | [] => none
  | (k, v) :: rest => if k.same key then some v else under? key rest

/-- The fields with one of them set: in its place and with its own spelling of the key if the key is there, else at the end. -/
def set (key : Key) (value : Value) : Fields → Fields
  | [] => [(key, value)]
  | (k, v) :: rest => if k.same key then (k, value) :: rest else (k, v) :: set key value rest

/-- The fields of a list of members, of which the last one under a key gives the value and the first one the spelling of the key. -/
def ofMembers (members : List (Key × Value)) : Fields :=
  members.foldl (fun fields (key, value) => set key value fields) []

end Fields

/-- A key as a value. -/
def Key.toValue : Key → Value
  | .null => .null
  | .bool b => .bool b
  | .int n => .int n
  | .float x => .float x
  | .text s => .text s
  | .moment m => .moment m

namespace Value

/-- The fields of a map, and none for any other value. -/
def fields : Value → Fields
  | .map fields => fields
  | _ => []

/-- Whether a value counts as absent where a whole layer is expected. -/
def isEmpty : Value → Bool
  | .null => true
  | .bool b => !b
  | .int n => n == 0
  | .float x => x.isZero
  | .text s => s.isEmpty
  | .list items => items.isEmpty
  | .map fields => fields.isEmpty
  | .moment _ => false
  | .unset => false

/-- The key that a value can be. -/
def toKey? : Value → Option Key
  | .null => some .null
  | .bool b => some (.bool b)
  | .int n => some (.int n)
  | .float x => some (.float x)
  | .text s => some (.text s)
  | .moment m => some (.moment m)
  | _ => none

end Value

end UserScripts
