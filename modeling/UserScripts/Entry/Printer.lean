import UserScripts.Entry.Statement
import UserScripts.Text.Word
import UserScripts.Wiki.Interwiki

/-!
# Printing of entries

Every entry is written in one canonical form: a load call with the URL of the script, and for a page a comment that links back
to it. Writing fails only for an entry whose URL has a host that no URL can have.
-/

namespace UserScripts

open UserScripts.Text

/-- Gives the MediaWiki site the host under which it is served, wherever a URL names it without `www`. -/
def servedMediaWiki (url : List Char) : List Char :=
  let name := "//mediawiki.org".toList
  substitute (fun s =>
    match afterFold? name s with
    | some rest => if wordEnds rest then some (name.length, "//www.mediawiki.org".toList) else none
    | none => none) url

/-- Whether a path names a style sheet, in any case, a line feed at its end aside. -/
def endsWithCss : List Char → Bool
  | [] => false
  | c :: s => (match afterFold? ".css".toList (c :: s) with | some rest => atEnd rest | none => false) || endsWithCss s

namespace Entry

/-- Whether an entry loads a style sheet. -/
def isCss (e : Entry) : Except Url.Malformed Bool :=
  match e.source with
  | .own page => .ok (endsWithCss page.toList)
  | .foreign _ page => .ok (endsWithCss page.toList)
  | .address url => (Url.split url.toList).map fun parts => endsWithCss parts.path

/-- The URL under which a wiki serves a page to be loaded. -/
def pageUrl (host page : String) : String :=
  let css := endsWithCss page.toList
  "//" ++ Wiki.normalizeHost host ++ "/w/index.php?title=" ++ page ++ "&action=raw&ctype=" ++
    if css then "text/css" else "text/javascript"

/-- The URL that an entry loads, for a session on the given server. -/
def loaderUrl (e : Entry) (server : String) : String :=
  let url := match e.source with
    | .own page => pageUrl server page
    | .foreign wiki page => pageUrl (wiki ++ ".org") page
    | .address url => url
  String.ofList (servedMediaWiki url.toList)

/-- The canonical call that loads an entry. -/
def loadCall (e : Entry) (s : Settings) : Except Url.Malformed String := do
  let mediaType := if ← e.isCss then ", 'text/css'" else ""
  return "mw.loader.load('" ++ escapeLiteral (e.loaderUrl s.serverName) ++ "'" ++ mediaType ++ ");"

/-- Whether two fragments may name the same wiki: one of them starts with the other. -/
def sameWiki (current source : String) : Bool :=
  current != "" && (source.toList.isPrefixOf current.toList || current.toList.isPrefixOf source.toList)

/-- The link title of an entry for a page. The documentation that the script names wins; a page of another wiki, and a page of
this wiki that the global target loads, take the prefix of their wiki. -/
def linkTitle (e : Entry) (s : Settings) : String :=
  match e.source with
  | .address _ => ""
  | .foreign wiki page =>
    match given e.docLink with
    | some title => title
    | none =>
      if sameWiki (lower (s.targetWiki e.target)) (lower wiki) then page
      else match Wiki.interwikiPrefix? wiki with
        | some start => start ++ ":" ++ page
        | none => page
  | .own page =>
    match given e.docLink with
    | some title => title
    | none =>
      if s.isGlobal e.target then
        match Wiki.interwikiPrefix? s.currentWiki with
        | some start => start ++ ":" ++ page
        | none => page
      else page

/-- The words before the link of a statement, in English on the global target. -/
def linkLabel (e : Entry) (s : Settings) : String :=
  if s.isGlobal e.target then (s.messages.fallback.get? "label-backlink").getD "label-backlink"
  else s.messages.wording "label-backlink" none

/-- The comment that links back to the page of an entry. -/
def backlink (e : Entry) (s : Settings) : String :=
  match e.source with
  | .address _ => ""
  | _ => " // " ++ e.linkLabel s ++ " [[" ++ escapeComment (e.linkTitle s) ++ "]]"

/-- The statement for an entry. -/
def statement (e : Entry) (s : Settings) : Except Url.Malformed String := do
  let call ← e.loadCall s
  return (if e.disabled then "//" else "") ++ call ++ e.backlink s

/-- How an entry is named in an edit summary: a link for a page, and the URL itself otherwise. -/
def description (e : Entry) (s : Settings) : String :=
  match e.source with
  | .address url => url
  | _ => "[[" ++ e.linkTitle s ++ "]]"

/-- A URL without its scheme. -/
def dropScheme (url : String) : String :=
  String.ofList (((afterFold? "https:".toList url.toList).orElse fun _ => afterFold? "http:".toList url.toList).getD url.toList)

/-- Whether a URL leads to what a page entry loads, scheme and case aside. -/
def urlLoads (url : String) (page : Entry) (s : Settings) : Bool :=
  lower (dropScheme url) == lower (dropScheme (page.loaderUrl s.serverName))

/-- Whether two entries load the same script, wherever they stand and whether they are disabled or not. -/
def sameScript (a b : Entry) (s : Settings) : Bool :=
  match a.source, b.source with
  | .address url, .address url' => url == url'
  | .address url, _ => urlLoads url b s
  | _, .address url => urlLoads url a s
  | _, _ => lower a.displayName == lower b.displayName &&
      Wiki.plainFragment (a.sourceWiki s) == Wiki.plainFragment (b.sourceWiki s)

end Entry

end UserScripts
