import UserScripts.Settings.Basic
import UserScripts.Value.Merge
import UserScripts.Value.Schema

/-!
# Settings from layers

The built-in layer, and the check that makes settings of merged layers. Unknown fields are ignored and missing ones hold their
defaults.
-/

namespace UserScripts.Settings

open UserScripts.Schema

/-- The field of a layer that holds the settings. -/
def rootField : String := "scriptmanager"

/-- The layer below all others. -/
def builtin : Fields :=
  [(rootField, .map [
    ("user_namespace", .text "User"),
    ("targets", .list (["common", "global", "monobook", "minerva", "vector", "vector-2022", "timeless"].map .text)),
    ("default_target", .text "common"),
    ("global_target", .text "global"),
    ("global_wiki_fragment", .text "meta.wikimedia"),
    ("summary_tag", .text "([[mw:User:Iniquity/scriptManager.js|Script Manager]])"),
    ("doc_scan_limit", .int 2000),
    ("capture_fallback_delay_ms", .int 5000),
    ("english_only_hosts", .list [.text "mediawiki.org", .text "wikidata.org"]),
    ("strings", .map [
      ("fallback", .map [
        ("label-backlink", .text "Backlink:"),
        ("label-loaded-from", .text "loaded from $1"),
        ("summary-install", .text "Installing $1"),
        ("summary-uninstall", .text "Uninstalling $1"),
        ("summary-disable", .text "Disabling $1"),
        ("summary-enable", .text "Enabling $1"),
        ("summary-normalize", .text "Normalizing script imports$1"),
        ("summary-capture", .text "Capturing $1"),
        ("summary-decapture", .text "Releasing $1 from capture"),
        ("capture-default-name", .text "Captured script")])])])]

/-- The messages of a map with three layers. -/
def messagesOf (fields : Fields) : Checked Messages :=
  Messages.mk <$> field fields "fallback" (mapOf text) [] <*> field fields "current" (mapOf text) [] <*>
    field fields "site" (mapOf text) []

/-- The settings of a map of fields. -/
def ofFields (fields : Fields) : Checked Settings :=
  let base : Settings := {}
  Settings.mk <$> field fields "server_name" text base.serverName <*> field fields "user_name" text base.userName <*>
    field fields "user_namespace" text base.userNamespace <*> field fields "targets" (listOf text) base.targets <*>
    field fields "default_target" text base.defaultTarget <*> field fields "global_target" text base.globalTarget <*>
    field fields "global_wiki_fragment" text base.globalWiki <*> field fields "summary_tag" text base.summaryTag <*>
    field fields "doc_scan_limit" int base.docScanLimit <*>
    field fields "capture_fallback_delay_ms" int base.fallbackDelay <*>
    field fields "english_only_hosts" (listOf text) base.englishOnlyHosts <*>
    field fields "strings" (record messagesOf) base.messages

/-- The settings of merged layers. Before any field is checked, all of them have to have a name. -/
def ofLayers (layers : List Fields) : Checked Settings :=
  let fields := ((Fields.mergeAll (layers.map some)).get? rootField).elim [] Value.fields
  if fields.all (·.1.isText) then ofFields fields else .fail .unnamed

end UserScripts.Settings
