import UserScripts.Url.Basic
import UserScripts.Wiki.Host

/-!
# Interwiki prefixes

A link to a page of another wiki starts with the prefix of that wiki. Prefixes are known for the language editions of the
projects, for the central projects, and for the two projects with a domain of their own.
-/

namespace UserScripts.Wiki

open UserScripts.Text

/-- The projects with language editions and the letters that stand for them in a prefix. -/
def languageProjects : List (String × String) :=
  [("wikipedia", "w"), ("wiktionary", "wikt"), ("wikibooks", "b"), ("wikiquote", "q"), ("wikisource", "s"), ("wikinews", "n"),
    ("wikiversity", "v"), ("wikivoyage", "voyage")]

/-- The central projects and their prefixes. -/
def centralProjects : List (String × String) :=
  [("commons", "c"), ("meta", "meta"), ("species", "species"), ("wikidata", "wikidata"), ("mediawiki", "mediawiki")]

/-- The projects with a domain of their own and their prefixes. -/
def standaloneProjects : List (String × String) :=
  [("mediawiki", "mw"), ("wikidata", "d")]

/-- Whether a character can stand in a language code. -/
def isLanguageChar (c : Char) : Bool :=
  c.isLower || c == '-'

/-- The key and value of the first entry whose key is the text, a line feed at its end aside. -/
def entryFor? (table : List (String × String)) (s : List Char) : Option String :=
  table.findSome? fun (name, short) =>
    match after? name.toList s with
    | some rest => if atEnd rest then some short else none
    | none => none

/-- The prefix of a language edition: project, colon, language code of two to ten characters. -/
def languagePrefix? (s : List Char) : Option String :=
  let code := s.takeWhile isLanguageChar
  match s.dropWhile isLanguageChar with
  | '.' :: project =>
    if 2 ≤ code.length && code.length ≤ 10 then
      (entryFor? languageProjects project).map (· ++ ":" ++ String.ofList code)
    else none
  | _ => none

/-- The prefix of a central project. -/
def centralPrefix? (s : List Char) : Option String :=
  centralProjects.findSome? fun (name, short) =>
    match after? (name ++ ".wikimedia").toList s with
    | some rest => if atEnd rest then some short else none
    | none => none

/-- The interwiki prefix of the wiki with the given fragment. -/
def interwikiPrefix? (wiki : String) : Option String :=
  let name := plainFragment wiki
  languagePrefix? name.toList <|> centralPrefix? name.toList <|> standaloneProjects.lookup name

/-- The link title of the page that a URL shows, if it is a page of a known wiki. Both the `title` parameter and the path
`/wiki/` name a page, and the parameter wins. -/
def linkOfUrl? (url : String) : Except Url.Malformed (Option String) := do
  if url.isEmpty then return none
  let parts ← Url.split (if (firstPlace (after? "//".toList) url.toList).isSome then url.toList else "//".toList ++ url.toList)
  let title := match parts.parameter? "title" with
    | some title => title
    | none => String.ofList (percentDecode ((after? "/wiki/".toList parts.path).getD []))
  return (interwikiPrefix? (fragment parts.host)).bind fun start => if title.isEmpty then none else some (start ++ ":" ++ title)

end UserScripts.Wiki
