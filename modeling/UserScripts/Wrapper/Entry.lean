import UserScripts.Entry.Printer
import UserScripts.Wrapper.Item

/-!
# Items and entries

The item under which an entry is captured, and the test whether an item loads the script of an entry. The test asks three
questions: the keys may agree, the calls may agree but for their blanks, and the call of the item may be a statement that loads
the same script.
-/

namespace UserScripts

open UserScripts.Text

namespace Item

/-- The name of a captured entry if none is given: its own name with spaces for underscores. -/
def nameOf (e : Entry) (s : Settings) : String :=
  let name := String.ofList (e.displayName.toList.map fun c => if c = '_' then ' ' else c)
  if name = "" then s.messages.wording "capture-default-name" (some "Captured script") else name

/-- The item under which an entry is captured. -/
def ofEntry (e : Entry) (name : Option String) (s : Settings) : Except Url.Malformed Item := do
  let call ← e.loadCall s
  let given := trim (name.getD "")
  return { key := e.key, name := if given = "" then nameOf e s else given, call }

/-- Whether the key of an item is that of an entry, case aside. -/
def hasKeyOf (i : Item) (e : Entry) : Bool :=
  i.key != "" && lower i.key == e.identity

/-- Whether the call of an item is a statement that loads the script of an entry. -/
def callLoads (i : Item) (e : Entry) (s : Settings) : Bool :=
  match Entry.ofLine? i.call e.target with
  | some parsed => parsed.sameScript e s
  | none => false

/-- Whether an item loads the script of an entry. The call of the entry is needed only if the keys differ. -/
def loads (i : Item) (e : Entry) (s : Settings) : Except Url.Malformed Bool :=
  if i.hasKeyOf e then .ok true
  else (e.loadCall s).map fun call => removeBlank i.call == removeBlank call || i.callLoads e s

end Item

end UserScripts
