import UserScripts.Log
import UserScripts.Page.Match

/-!
# The cache

The texts of targets that have been read in a session. A target is dropped as soon as it has been edited, so that the next
reading fetches it again.
-/

namespace UserScripts

/-- The texts of targets. -/
abbrev Cache := Keyed String String

namespace Cache

/-- The cache without a target, or an empty one. -/
def forget (cache : Cache) : Option String → Cache
  | some target => cache.erase target
  | none => []

@[simp]
theorem forget_none (cache : Cache) : cache.forget none = [] := rfl

theorem get?_forget_some (cache : Cache) (target other : String) :
    Keyed.get? (cache.forget (some target)) other = if target = other then none else Keyed.get? cache other :=
  Keyed.get?_erase target other cache

/-- What is noted when a target is dropped. -/
def forgetNote (target : Option String) : Note :=
  ⟨.cache, .debug, "Invalidated cached text of " ++ (Text.given target).getD "all targets"⟩

/-- The statements in a text of a target, outside its wrappers. -/
def entriesOf (target text : String) : List Entry :=
  (Page.plainEntries (Text.lines text) target).map Prod.snd

/-- The items in the wrappers of a text. -/
def itemsOf (text : String) : List Item :=
  Wrapper.decode (Text.lines text)

/-- The text of a target, which is empty if the cache does not hold it. -/
def textOf (cache : Cache) (target : String) : String :=
  (Keyed.get? cache target).getD ""

/-- The statements of a target outside its wrappers. -/
def entries (cache : Cache) (target : String) : List Entry :=
  entriesOf target (cache.textOf target)

/-- The items in the wrappers of a target. -/
def items (cache : Cache) (target : String) : List Item :=
  itemsOf (cache.textOf target)

end Cache

end UserScripts
