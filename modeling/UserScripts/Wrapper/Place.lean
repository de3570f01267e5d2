import UserScripts.Wrapper.Render

/-!
# The place of a wrapper on a page

A new wrapper comes at the end of a page, after one blank line, and a changed one comes where the first wrapper was. A wrapper
without items is not written at all.
-/

namespace UserScripts.Wrapper

open UserScripts.Text

/-- The lines of a page without its trailing blank lines, and the wrapper after one blank line if it has items. -/
def append (lines : List String) (items : List Item) (delay : Int) : List String :=
  let kept := dropEndBlankLines lines
  if items.isEmpty then kept
  else (if kept.isEmpty then [] else kept ++ [""]) ++ render items delay

/-- The lines whose positions do not satisfy `drop`, with new lines in place of the one at position `first`; the first line has
position `i`. -/
def replaceFrom (first : Nat) (drop : Nat → Bool) (new : List String) (i : Nat) : List String → List String
  | [] => []
  | line :: rest =>
    if i = first then new ++ replaceFrom first drop new (i + 1) rest
    else if drop i then replaceFrom first drop new (i + 1) rest
    else line :: replaceFrom first drop new (i + 1) rest

/-- The lines of a page with one wrapper, of the given items, in place of all of its wrappers, and without the lines at the
positions to be dropped. -/
def replace (lines : List String) (drop : Nat → Bool) (items : List Item) (delay : Int) : List String :=
  let ranges := blocks lines
  let gone i := inside ranges i || drop i
  match ranges with
  | [] => append (dropLines gone lines) items delay
  | first :: _ =>
    if items.isEmpty then append (dropLines gone lines) items delay
    else replaceFrom first.1 gone (render items delay) 0 lines

end UserScripts.Wrapper
