import UserScripts.Entry.Printer

/-!
# Edit summaries

Every edit is described by a message that names the script, followed by the tag of the program.
-/

namespace UserScripts

open UserScripts.Text

namespace Summary

/-- A text that counts as missing if it is empty. -/
def orKey (text : Option String) (key : String) : String :=
  (given text).getD key

/-- The message under a key. The global target and English-only wikis take the English one; elsewhere the language of the wiki
wins over that of the user, and English is the last resort. An empty message gives way to its key. -/
def message (target key : String) (m : Messages) (s : Settings) : String :=
  let english := orKey (m.fallback.get? key) key
  if s.isGlobal target || s.isEnglishOnly then english
  else match m.site.get? key, m.current.get? key with
    | some text, _ => orKey (some text) key
    | none, some text => orKey (some text) key
    | none, none => english

/-- A text followed by the tag, if there is one. -/
def withTag (text tag : String) : String :=
  if tag = "" then text else text ++ " " ++ tag

/-- The summary of a change on a target: the message with the description in place of its first `$1`, and the tag. -/
def build (target key description : String) (m : Messages) (s : Settings) : String :=
  withTag (String.ofList (replaceFirst "$1".toList description.toList (message target key m s).toList)) s.summaryTag

/-- The summary of a change to an entry. -/
def ofEntry (e : Entry) (key : String) (s : Settings) : String :=
  build e.target key (e.description s) s.messages s

end Summary

end UserScripts
