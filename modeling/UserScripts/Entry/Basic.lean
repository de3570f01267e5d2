import UserScripts.Settings.Basic
import UserScripts.Value.Schema

/-!
# Entries

An entry is one script or style sheet that a target page loads: a page of the same wiki, a page of another wiki, or whatever a
URL leads to. An empty text in one of the three fields that say so counts as missing, and the type keeps the two rules of the
fields: a page or a URL but not both, and a wiki only with a page.
-/

namespace UserScripts

open UserScripts.Text

/-- What an entry loads. -/
inductive Source where
  /-- A page of the wiki on which the statement stands. -/
  | own (page : String)
  /-- A page of a named wiki. -/
  | foreign (wiki page : String)
  | address (url : String)
deriving DecidableEq, Repr

/-- A script that a target loads. -/
structure Entry where
  page : Option String
  wiki : Option String
  url : Option String
  target : String := "common"
  /-- Whether the statement is commented out. -/
  disabled : Bool := false
  /-- The link title of the documentation that the script itself names. -/
  docLink : Option String := none
  page_or_url : (given page).isSome ≠ (given url).isSome
  wiki_of_page : (given wiki).isSome → (given page).isSome
deriving DecidableEq

theorem given_some {s : String} (h : s ≠ "") : given (some s) = some s := by
  simp [given, Option.filter, h]

theorem given_none : given none = none := rfl

namespace Entry

/-- The entry with the given fields, or the first rule that they break. -/
def ofParts (page wiki url : Option String) (target : String) (disabled : Bool) (docLink : Option String) :
    Except Rule Entry :=
  if hp : (given page).isSome = (given url).isSome then .error .pageOrUrl
  else if hw : (given wiki).isSome → (given page).isSome then
    .ok { page, wiki, url, target, disabled, docLink, page_or_url := hp, wiki_of_page := hw }
  else .error .wikiOfPage

/-- An entry for a page, of the same wiki if none is named. -/
def ofPage (page : String) (nonempty : page ≠ "") (wiki : Option String) (target : String) (disabled : Bool) : Entry where
  page := some page
  wiki := wiki
  url := none
  target := target
  disabled := disabled
  page_or_url := by simp [given_some nonempty, given_none]
  wiki_of_page := by simp [given_some nonempty]

/-- An entry for a URL. -/
def ofUrl (url : String) (nonempty : url ≠ "") (target : String) (disabled : Bool) : Entry where
  page := none
  wiki := none
  url := some url
  target := target
  disabled := disabled
  page_or_url := by simp [given_some nonempty, given_none]
  wiki_of_page := by simp [given_none]

/-- The entry with fields that are still to be checked. -/
def ofFields (fields : Fields) : Checked Entry :=
  let parts : Checked (Except Rule Entry) :=
    ofParts <$> Schema.field fields "page" Schema.textOrNull none <*> Schema.field fields "wiki" Schema.textOrNull none <*>
      Schema.field fields "url" Schema.textOrNull none <*> Schema.field fields "target" Schema.text "common" <*>
      Schema.field fields "disabled" Schema.bool false <*> Schema.field fields "doc_interwiki" Schema.textOrNull none
  match parts with
  | .valid (.ok entry) => .valid entry
  | .valid (.error rule) => .fail (.broken rule)
  | .invalid issues => .invalid issues

/-- What an entry loads. -/
def source (e : Entry) : Source :=
  match given e.url with
  | some url => .address url
  | none =>
    match given e.wiki with
    | some wiki => .foreign wiki (e.page.getD "")
    | none => .own (e.page.getD "")

/-- The entry for another target. -/
def withTarget (e : Entry) (target : String) : Entry :=
  { e with target }

/-- The entry switched off or on. -/
def withDisabled (e : Entry) (disabled : Bool) : Entry :=
  { e with disabled }

/-- The entry with the link title of its documentation. -/
def withDocLink (e : Entry) (title : String) : Entry :=
  { e with docLink := some title }

/-- The key under which an entry is captured. -/
def key (e : Entry) : String :=
  match e.source with
  | .own page => "local:" ++ e.target ++ ":" ++ page
  | .foreign wiki page => "remote:" ++ e.target ++ ":" ++ wiki ++ ":" ++ page
  | .address url => "url:" ++ e.target ++ ":" ++ url

/-- The key without regard to case. -/
def identity (e : Entry) : String :=
  lower e.key

/-- The name of an entry in messages: its page or its URL. -/
def displayName (e : Entry) : String :=
  match e.source with
  | .own page => page
  | .foreign _ page => page
  | .address url => url

/-- The fragment of the wiki that a page is loaded from. -/
def sourceWiki (e : Entry) (s : Settings) : String :=
  (given e.wiki).getD s.currentWiki

end Entry

end UserScripts
