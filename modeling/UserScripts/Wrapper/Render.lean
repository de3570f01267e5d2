import UserScripts.Text.Lines
import UserScripts.Wrapper.Item

/-!
# Rendering of wrappers

A wrapper is always written anew from its items: a list of the items, each between its markers, and a program that runs their
calls unless a listener takes them over in time. Nothing but the items and the delay decides what is written.
-/

namespace UserScripts.Wrapper

open UserScripts.Text

/-- The lines of an item; every item but the last is followed by a comma. -/
def itemLines (last : Bool) (item : Item) : List String :=
  ["\t\t" ++ Marker.itemStart.line, "\t\t\x7b",
    "\t\t\tkey: " ++ Json.quote item.key ++ ",",
    "\t\t\tname: " ++ Json.quote item.name ++ ",",
    "\t\t\tfn: function scriptsToManage() \x7b"] ++
  lines ("\t\t\t\t" ++ trim item.call) ++
  ["\t\t\t\x7d", "\t\t\x7d" ++ (if last then "" else ","), "\t\t" ++ Marker.itemStop.line]

/-- The lines of a list of items. -/
def listLines : List Item → List String
  | [] => []
  | [item] => itemLines true item
  | item :: next :: rest => itemLines false item ++ listLines (next :: rest)

/-- The lines before the items. -/
def headLines : List String :=
  [Marker.start.line, "(function () \x7b", "\tconst smCaptureItems = ["]

/-- The program that follows the items, up to its delay. -/
def programLines : List String :=
  ["\t];",
    "\tlet smCaptured = false;",
    "\tlet smCaptureEnabled = false;",
    "\ttry \x7b",
    "\t\tconst smRawSettings = mw && mw.user && mw.user.options && typeof mw.user.options.get === 'function'",
    "\t\t\t? mw.user.options.get('userjs-sm-settings')",
    "\t\t\t: '';",
    "\t\tif (smRawSettings) \x7b",
    "\t\t\tconst smParsedSettings = JSON.parse(smRawSettings);",
    "\t\t\tsmCaptureEnabled = Boolean(smParsedSettings && smParsedSettings.captureEnabled === true);",
    "\t\t\x7d",
    "\t\x7d catch \x7b\x7d",
    "\tif (!smCaptureEnabled) \x7b",
    "\t\tsmCaptureItems.forEach(function (item) \x7b",
    "\t\t\titem.fn();",
    "\t\t\x7d);",
    "\t\treturn;",
    "\t\x7d",
    "\tif (!mw || typeof mw.hook !== 'function') \x7b",
    "\t\tsmCaptureItems.forEach(function (item) \x7b",
    "\t\t\titem.fn();",
    "\t\t\x7d);",
    "\t\treturn;",
    "\t\x7d",
    "\tconst smCapturePayload = smCaptureItems.map(function (item) \x7b",
    "\t\treturn \x7b",
    "\t\t\tkey: item.key,",
    "\t\t\tname: item.name,",
    "\t\t\tfn: function () \x7b",
    "\t\t\t\tsmCaptured = true;",
    "\t\t\t\titem.fn();",
    "\t\t\t\x7d",
    "\t\t\x7d;",
    "\t\x7d);",
    "\tmw.hook('scriptManager.capture').fire(\x7b items: smCapturePayload \x7d);",
    "\tsetTimeout(function () \x7b",
    "\t\tif (!smCaptured) \x7b",
    "\t\t\tsmCaptureItems.forEach(function (item) \x7b",
    "\t\t\t\titem.fn();",
    "\t\t\t\x7d);",
    "\t\t\x7d"]

/-- The lines after the items. The calls run after `delay` milliseconds unless a listener has taken them over. -/
def tailLines (delay : Int) : List String :=
  programLines ++ ["\t\x7d, " ++ toString delay ++ ");", "\x7d)();", Marker.stop.line]

/-- The delay of a wrapper if nothing else is asked for, in milliseconds. -/
def defaultDelay : Int := 5000

/-- The lines of the wrapper with the given items. -/
def render (items : List Item) (delay : Int) : List String :=
  headLines ++ listLines items ++ tailLines delay

end UserScripts.Wrapper
