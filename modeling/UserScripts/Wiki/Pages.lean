import UserScripts.Edit

/-!
# Wikis and services

A wiki holds pages and remembers who read and edited them. A service stands between the program and a wiki: it either passes
everything on, or keeps a draft, which takes the edits in the place of the wiki and shows the pages as they would be. The main
statements say which texts an edit changes, and that reading changes none.
-/

namespace UserScripts

/-- A wiki: its pages by title, the titles that have been read and the edits that have been saved. A page that is missing is
read as an empty one. -/
structure Wiki where
  pages : Keyed String String := []
  reads : List String := []
  edits : List Edit := []
deriving DecidableEq, Repr

namespace Wiki

/-- The text of a page, which is empty if there is no such page. -/
def text (w : Wiki) (title : String) : String :=
  (w.pages.get? title).getD ""

/-- The wiki after a page has been read. -/
def read (w : Wiki) (title : String) : Wiki :=
  { w with reads := w.reads ++ [title] }

/-- The wiki after an edit. -/
def save (w : Wiki) (e : Edit) : Wiki :=
  { w with pages := w.pages.put e.title (e.change.apply (w.text e.title)), edits := w.edits ++ [e] }

/-- The wiki after a page has been written from elsewhere. -/
def overwrite (w : Wiki) (title text : String) : Wiki :=
  { w with pages := w.pages.put title text }

@[simp]
theorem text_read (w : Wiki) (title other : String) : (w.read title).text other = w.text other := rfl

/-- An edit changes its own page only. -/
theorem text_save (w : Wiki) (e : Edit) (other : String) :
    (w.save e).text other = if e.title = other then e.change.apply (w.text other) else w.text other := by
  simp only [save, Wiki.text, Keyed.get?_put]
  split
  · next h => subst h; rfl
  · rfl

end Wiki

/-- The access to a wiki, with or without a draft. -/
structure Service where
  wiki : Wiki := {}
  /-- A local copy of the pages that have been seen, which takes all edits. -/
  draft : Option Wiki := none
deriving DecidableEq, Repr

namespace Service

/-- The text of a page as the service shows it. -/
def text (s : Service) (title : String) : String :=
  match s.draft with
  | none => s.wiki.text title
  | some draft => (draft.pages.get? title).getD (s.wiki.text title)

/-- Whether reading a page takes a call to the wiki: a draft serves the pages it holds. -/
def asksWiki (s : Service) (title : String) : Bool :=
  match s.draft with
  | none => true
  | some draft => (draft.pages.get? title).isNone

/-- The service after a page has been read. -/
def read (s : Service) (title : String) : Service :=
  match s.draft with
  | none => { s with wiki := s.wiki.read title }
  | some draft =>
    if (draft.pages.get? title).isSome then s
    else { wiki := s.wiki.read title, draft := some (draft.overwrite title (s.wiki.text title)) }

/-- The service after an edit. -/
def save (s : Service) (e : Edit) : Service :=
  match s.draft with
  | none => { s with wiki := s.wiki.save e }
  | some draft => { s with draft := some (draft.save e) }

/-- The edits that have been made through the service. -/
def edits (s : Service) : List Edit :=
  match s.draft with
  | none => s.wiki.edits
  | some draft => draft.edits

/-- Reading changes no text that the service shows. -/
@[simp]
theorem text_read (s : Service) (title other : String) : (s.read title).text other = s.text other := by
  cases h : s.draft with
  | none => simp [Service.text, read, h]
  | some draft =>
    cases hp : draft.pages.get? title with
    | some held => simp [Service.text, read, h, hp]
    | none =>
      simp only [Service.text, read, h, hp, Option.isSome_none, Bool.false_eq_true, if_false, Wiki.overwrite, Wiki.text_read,
        Keyed.get?_put]
      split
      · next ht => subst ht; simp [hp]
      · rfl

end Service

end UserScripts
