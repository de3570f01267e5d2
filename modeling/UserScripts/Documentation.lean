import UserScripts.Entry.Printer

/-!
# Documentation links

The header of a script may name the page that documents it. The link is looked for at the start of the script only, and a URL
of a known wiki becomes a link title.
-/

namespace UserScripts.Documentation

open UserScripts.Text

/-- The longest text of characters that satisfy `p`, if it is not empty. -/
def wordOf (p : Char → Bool) (s : List Char) : Option (List Char) :=
  match s.takeWhile p with
  | [] => none
  | word => some word

/-- The reference after a tag such as `@see`: at least one blank, then a text without blanks and stars. -/
def afterTag (tag : String) (s : List Char) : Option (List Char) :=
  match afterFold? tag.toList s with
  | some (c :: rest) => if isBlank c then wordOf (fun c => !isBlank c && c != '*') (dropBlank rest) else none
  | _ => none

/-- The reference after the label `Documentation:`, which may follow it at once. -/
def afterLabel (s : List Char) : Option (List Char) :=
  (after? "Documentation:".toList s).bind fun rest => wordOf (fun c => !isBlank c) (dropBlank rest)

/-- The documentation reference in a text: that of the first `@documentation` tag, else of the label, else of `@see`. -/
def reference? (text : String) : Option String :=
  let s := text.toList
  let found := (firstPlace (afterTag "@documentation") s).orElse fun _ =>
    (firstPlace afterLabel s).orElse fun _ => firstPlace (afterTag "@see") s
  found.map String.ofList

/-- The start of a text that is searched: so many characters, or all but so many at its end if the limit is negative. -/
def header (limit : Int) (text : String) : String :=
  let s := text.toList
  String.ofList (if 0 ≤ limit then s.take limit.toNat else s.take (s.length - (-limit).toNat))

/-- The link title for a reference. -/
def title? (reference : String) : Except Url.Malformed (Option String) :=
  if (firstPlace (after? "//".toList) reference.toList).isSome then Wiki.linkOfUrl? reference else .ok (some reference)

/-- The host and the page from which the source of an entry is fetched; only pages are looked up. -/
def lookup? (e : Entry) (s : Settings) : Option (String × String) :=
  match e.source with
  | .own page => some (Wiki.normalizeHost s.serverName, page)
  | .foreign wiki page => some (Wiki.normalizeHost (wiki ++ ".org"), page)
  | .address _ => none

end UserScripts.Documentation
