import UserScripts.Text.Blank
import UserScripts.Text.Scan

/-!
# Wiki hosts

A wiki is named by its host or by the fragment of its host before `.org`. Users write hosts in many ways, so both are derived
from a text that may still hold a scheme, a path and blanks.
-/

namespace UserScripts.Wiki

open UserScripts.Text

/-- What follows the scheme of a web address, if there is one. -/
def dropWebScheme (s : List Char) : List Char :=
  match afterFold? "https://".toList s with
  | some rest => rest
  | none => (afterFold? "http://".toList s).getD s

/-- The text without its path: what a slash introduces, up to the end of the last line. -/
def dropPath : List Char → List Char
  | [] => []
  | c :: s =>
    if c = '/' && atEnd (s.dropWhile (· != '\n')) then s.dropWhile (· != '\n') else c :: dropPath s

/-- The host that a text names: without blanks around it, scheme and path. The MediaWiki site is served under `www`. -/
def normalizeHost (host : String) : String :=
  let clean := String.ofList (dropPath (dropWebScheme (trim host).toList))
  if lower clean = "mediawiki.org" then "www.mediawiki.org" else clean

/-- The text without the ending `.org`, in any case. -/
def dropOrg : List Char → List Char
  | [] => []
  | c :: s =>
    match afterFold? ".org".toList (c :: s) with
    | some rest => if atEnd rest then rest else c :: dropOrg s
    | none => c :: dropOrg s

/-- The fragment that names a wiki: its host without `.org`. -/
def fragment (host : String) : String :=
  String.ofList (dropOrg (normalizeHost host).toList)

/-- The text without the leading `www.`. -/
def dropWww (s : List Char) : List Char :=
  (after? "www.".toList s).getD s

/-- The form in which two fragments are compared: in lower case and without the leading `www.`. -/
def plainFragment (wiki : String) : String :=
  String.ofList (dropWww (lower wiki).toList)

end UserScripts.Wiki
