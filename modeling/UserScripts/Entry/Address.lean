import UserScripts.Entry.Basic
import UserScripts.Text.Percent

/-!
# Page addresses

The URL under which a wiki serves a page to be loaded names the wiki and the page: `//<wiki>.org/w/index.php?...title=<page>`.
Such a URL is taken apart, and every other one is kept whole.
-/

namespace UserScripts

open UserScripts.Text

namespace Address

/-- The shortest text of one character or more, without line feed, after which `next` can go on. -/
def shortest (next : List Char → Option α) : List Char → Option (List Char × α)
  | [] => none
  | c :: s =>
    if c = '\n' then none
    else match next s with
      | some a => some ([c], a)
      | none => (shortest next s).map fun (text, a) => (c :: text, a)

/-- The answer at the first place on the line where `next` can go on. -/
def somewhere (next : List Char → Option α) : List Char → Option α
  | [] => next []
  | c :: s =>
    match next (c :: s) with
    | some a => some a
    | none => if c = '\n' then none else somewhere next s

/-- The end of a parameter: an ampersand, which belongs to it, or the end of the URL. -/
def parameterEnd (s : List Char) : Option (List Char) :=
  match s with
  | '&' :: _ => some ['&']
  | _ => if atEnd s then some [] else none

/-- The value of a parameter together with the ampersand after it. It has at least one character, which can be an ampersand. -/
def parameterText (s : List Char) : Option (List Char) :=
  (shortest parameterEnd s).map fun (text, mark) => text ++ mark

/-- A part of a URL without an ampersand at its end, decoded. -/
def decodePart (s : List Char) : List Char :=
  percentDecode (substitute (fun t => match t with
    | '&' :: rest => if atEnd rest then some (1, []) else none
    | _ => none) s)

/-- What follows the scheme of a URL or the lack of one. -/
def dropScheme (s : List Char) : List Char :=
  ((after? "https:".toList s).orElse fun _ => after? "http:".toList s).getD s

/-- The wiki and the page that a URL names, as they are written in it. -/
def parts? (url : List Char) : Option (List Char × List Char) := do
  let rest ← after? "//".toList (dropScheme url)
  shortest (fun s => do
    let query ← after? ".org/w/index.php?".toList s
    somewhere (fun t => do parameterText (← after? "title=".toList t)) query) rest

/-- The wiki and the page that a URL names, decoded. -/
def page? (url : String) : Option (String × String) :=
  (parts? url.toList).map fun (wiki, page) => (String.ofList (decodePart wiki), String.ofList (decodePart page))

end Address

namespace Entry

/-- The entry that a URL stands for: a page if it names one, else the URL itself. -/
def ofAddress (url : String) (nonempty : url ≠ "") (target : String) (disabled : Bool) : Entry :=
  match Address.page? url with
  | some (wiki, page) =>
    if h : page = "" then ofUrl url nonempty target disabled else ofPage page h (some wiki) target disabled
  | none => ofUrl url nonempty target disabled

/-- The entry that a URL stands for, or the rule that an empty one breaks. -/
def ofAddress? (url : String) (target : String) (disabled : Bool) : Except Rule Entry :=
  if h : url = "" then .error .pageOrUrl else .ok (ofAddress url h target disabled)

end Entry

end UserScripts
