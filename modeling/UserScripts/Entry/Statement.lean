import UserScripts.Entry.Address
import UserScripts.Text.Blank
import UserScripts.Text.Literal

/-!
# Statements

A statement is a line that loads one script, possibly commented out:

    importScript('User:Foo/bar.js');
    mw.loader.load('//en.wikipedia.org/w/index.php?title=User:Foo/bar.js&action=raw&ctype=text/javascript');

Only the start of a line is read, and blanks may stand between any two tokens. The literal ends at the first quote of its kind
after which the call can end as well, so a quote in the middle of it need not be escaped.
-/

namespace UserScripts

open UserScripts.Text

/-- The two functions that a statement calls. -/
inductive Callee where
  /-- `importScript`, which takes a page title. -/
  | importScript
  /-- `mw.loader.load`, which takes a URL and possibly a media type. -/
  | load
deriving DecidableEq, Repr

/-- A statement as it stands on a line. -/
structure Statement where
  /-- Whether two slashes stand before the call. -/
  disabled : Bool
  callee : Callee
  /-- What stands between the quotes of the literal, without the blanks around it. -/
  body : List Char
  /-- The media type of a load call. -/
  mediaType : Option String
  /-- What follows the call and its semicolon. -/
  rest : List Char
  body_ne_nil : body ≠ []
deriving DecidableEq

namespace Statement

/-- What follows the slashes that disable a call, and whether they are there. -/
def dropSlashes (s : List Char) : Bool × List Char :=
  match dropBlank s with
  | '/' :: '/' :: rest => (true, rest)
  | rest => (false, rest)

/-- What follows a call, its closing parenthesis being read: a semicolon may end it. -/
def dropSemicolon (s : List Char) : List Char :=
  match dropBlank s with
  | ';' :: rest => rest
  | rest => rest

/-- The media types that a load call may name. -/
def mediaTypes : List String :=
  ["text/css", "application/css", "text/javascript", "application/javascript"]

/-- Reads the media type of a load call after its comma, and the closing parenthesis. -/
def mediaType? (s : List Char) : Option (String × List Char) := do
  match dropBlank s with
  | quote :: rest =>
    if quote = '\'' || quote = '"' then
      mediaTypes.findSome? fun name => do
        let rest ← after? name.toList (dropBlank rest)
        let rest ← after? [quote] (dropBlank rest)
        let rest ← after? [')'] (dropBlank rest)
        return (name, dropSemicolon rest)
    else none
  | [] => none

/-- Reads the end of a call from the closing quote of its literal: the media type if there is one, and what follows. -/
def close? (callee : Callee) (quote : Char) (s : List Char) : Option (Option String × List Char) := do
  let rest ← after? [quote] (dropBlank s)
  match dropBlank rest with
  | ')' :: rest => some (none, dropSemicolon rest)
  | ',' :: rest =>
    if callee = .load then (mediaType? rest).map fun (name, rest) => (some name, rest) else none
  | _ => none

/-- Reads a literal after its opening quote up to what `next` accepts. Blanks at its start belong to it only if the literal
cannot be read otherwise. -/
def literal? (next : List Char → Option α) : List Char → Option (List Char × α)
  | [] => none
  | c :: s =>
    if isBlank c then
      match literal? next s with
      | some result => some result
      | none => Address.shortest next (c :: s)
    else Address.shortest next (c :: s)

theorem shortest_ne_nil {next : List Char → Option α} {s : List Char} {result : List Char × α}
    (h : Address.shortest next s = some result) : result.1 ≠ [] := by
  induction s generalizing result with
  | nil => simp [Address.shortest] at h
  | cons c s ih =>
    rw [Address.shortest] at h
    split at h
    · simp at h
    · split at h
      · simp only [Option.some.injEq] at h; subst h; simp
      · simp only [Option.map_eq_some_iff] at h
        obtain ⟨r, _, rfl⟩ := h
        simp

theorem literal?_ne_nil {next : List Char → Option α} {s : List Char} {result : List Char × α}
    (h : literal? next s = some result) : result.1 ≠ [] := by
  induction s generalizing result with
  | nil => simp [literal?] at h
  | cons c s ih =>
    rw [literal?] at h
    split at h
    · split at h
      · next r hr => simp only [Option.some.injEq] at h; subst h; exact ih hr
      · exact shortest_ne_nil h
    · exact shortest_ne_nil h

/-- Reads a call of one of the two functions, from after its opening parenthesis. -/
def call? (disabled : Bool) (callee : Callee) (s : List Char) : Option Statement :=
  match dropBlank s with
  | quote :: rest =>
    if quote = '\'' || quote = '"' then
      match h : literal? (close? callee quote) rest with
      | some (body, mediaType, rest) => some { disabled, callee, body, mediaType, rest, body_ne_nil := literal?_ne_nil h }
      | none => none
    else none
  | [] => none

/-- The statement at the start of a line. -/
def ofLine? (line : List Char) : Option Statement :=
  let (disabled, s) := dropSlashes line
  match tokens? ["importScript", "("] s with
  | some rest => call? disabled .importScript rest
  | none =>
    match tokens? ["mw", ".", "loader", ".", "load", "("] s with
    | some rest => call? disabled .load rest
    | none => none

theorem ofLiteral_ne_nil {s : List Char} (h : s ≠ []) : ofLiteral s ≠ [] := by
  cases s with
  | nil => exact absurd rfl h
  | cons c s => rw [ofLiteral.eq_def]; split <;> simp_all

/-- The title or URL that the literal of a statement stands for. -/
def argument (s : Statement) : String :=
  String.ofList (ofLiteral s.body)

theorem argument_ne_empty (s : Statement) : s.argument ≠ "" := by
  intro h
  have := congrArg String.toList h
  simp only [argument, String.toList_ofList] at this
  exact ofLiteral_ne_nil s.body_ne_nil this

/-- The entry that a statement declares on a target. -/
def entry (s : Statement) (target : String) : Entry :=
  match s.callee with
  | .importScript => Entry.ofPage s.argument s.argument_ne_empty none target s.disabled
  | .load => Entry.ofAddress s.argument s.argument_ne_empty target s.disabled

end Statement

namespace Entry

/-- The entry that a line declares, if it is a statement. -/
def ofLine? (line target : String) : Option Entry :=
  (Statement.ofLine? line.toList).map (·.entry target)

/-- The entries that lines declare, each with the position of its line; the first line has position `start`. -/
def ofLinesFrom (target : String) (start : Nat) : List String → List (Nat × Entry)
  | [] => []
  | line :: rest =>
    match ofLine? line target with
    | some entry => (start, entry) :: ofLinesFrom target (start + 1) rest
    | none => ofLinesFrom target (start + 1) rest

/-- The entries that lines declare, each with the position of its line. -/
def ofLines (target : String) (lines : List String) : List (Nat × Entry) :=
  ofLinesFrom target 0 lines

end Entry

end UserScripts
