import UserScripts.Value.Schema

/-!
# Edits

An edit of a page either replaces its text or adds to its end.
-/

namespace UserScripts

/-- What an edit does to the text of a page. -/
inductive Change where
  | replace (text : String)
  | append (text : String)
deriving DecidableEq, Repr

/-- The text of a page after a change. -/
def Change.apply (old : String) : Change → String
  | .replace text => text
  | .append text => old ++ text

/-- The text that a change brings along. -/
def Change.text : Change → String
  | .replace text => text
  | .append text => text

/-- An edit of a page. -/
structure Edit where
  title : String
  summary : String
  change : Change
deriving DecidableEq, Repr

namespace Edit

/-- The change that replaces the text, or adds to it; just one of the two has to be given. -/
def changeOf (text appended : Option String) : Except Rule Change :=
  match text, appended with
  | some text, none => .ok (.replace text)
  | none, some text => .ok (.append text)
  | _, _ => .error .textOrAppended

/-- The edit with fields that are still to be checked. -/
def ofFields (fields : Fields) : Checked Edit :=
  let parts : Checked (Except Rule Edit) :=
    (fun title summary text appended => (changeOf text appended).map fun change => { title, summary, change }) <$>
      Schema.required fields "title" Schema.text <*> Schema.required fields "summary" Schema.text <*>
      Schema.field fields "text" Schema.textOrNull none <*> Schema.field fields "appendtext" Schema.textOrNull none
  match parts with
  | .valid (.ok edit) => .valid edit
  | .valid (.error rule) => .fail (.broken rule)
  | .invalid issues => .invalid issues

end Edit

end UserScripts
