import UserScripts.Keyed
import UserScripts.Value.Json

/-!
# Archives

The wikis of a run as one text: a JSON map from hosts to maps from titles to texts.
-/

namespace UserScripts.CommandLine.Archive

/-- The notation of a map whose values are written already. -/
def mapText (members : List (String × String)) : String :=
  "\x7b" ++ ",\n".intercalate (members.map fun (key, text) => Json.quote key ++ ": " ++ text) ++ "\x7d"

/-- The text for a collection of wikis. -/
def toText (wikis : Keyed String (Keyed String String)) : String :=
  mapText (wikis.map fun (host, pages) => (host, mapText (pages.map fun (title, text) => (title, Json.quote text)))) ++ "\n"

/-- The pages in a value. -/
def pagesOf (v : Value) : Keyed String String :=
  v.fields.filterMap fun (title, text) =>
    match text with
    | .text t => some (title.toText, t)
    | _ => none

/-- The wikis that a text describes. -/
def ofText? (text : String) : Option (Keyed String (Keyed String String)) :=
  match Json.ofText? text.toList with
  | some (.map hosts) => some (hosts.map fun (host, pages) => (host.toText, pagesOf pages))
  | _ => none

end UserScripts.CommandLine.Archive
