import Mathlib.Tactic.Common
import UserScripts.Proofs.Wrapper.Field
import UserScripts.Proofs.Wrapper.Marker
import UserScripts.Proofs.Text.Lines
import UserScripts.Wrapper.Render

/-!
# Facts about rendered wrappers

A rendered wrapper lies between its two markers and has no other block marker, whatever its items are, and between its item
markers stand the lines of one item each. Main statements: `render_eq`, `blocks_render` and `readItems_render`, what is read
between the item markers.
-/

namespace UserScripts

open UserScripts.Text UserScripts.Json

namespace Item

/-- The item as a wrapper stores it. -/
def stored (i : Item) : Item :=
  { i with call := trim i.call }

/-- An item whose call takes one line and is read from that line as it is. This holds of an item without a call, too. -/
structure Storable (i : Item) : Prop where
  isLine : IsLine (trim i.call)
  extract : Wrapper.extractCall (trim i.call) = trim i.call

/-- Whether an item calls anything. -/
def hasCall (i : Item) : Bool :=
  trim i.call != ""

/-- An item whose call can be read back from its own line. -/
structure Readable (i : Item) : Prop extends Storable i where
  ne_empty : trim i.call ≠ ""

/-- An item that can be read back has a call. -/
theorem Readable.hasCall {i : Item} (h : i.Readable) : i.hasCall = true := by
  rw [Item.hasCall, bne_iff_ne]
  exact h.ne_empty

/-- An item that can be written, and that has a call, can be read back. -/
theorem Storable.readable {i : Item} (h : i.Storable) (hcall : i.hasCall = true) : i.Readable :=
  ⟨h, bne_iff_ne.mp hcall⟩

/-- An item without a call is stored without one. -/
theorem trim_call_of_not_hasCall {i : Item} (h : i.hasCall = false) : trim i.call = "" := by
  rw [Item.hasCall, bne_eq_false_iff_eq] at h
  exact h

end Item

namespace Wrapper

/-! ## Lines without fields -/

/-- A line with neither a field nor a call. -/
structure Inert (line : String) : Prop where
  key : fieldToken? "key" line = none
  name : fieldToken? "name" line = none
  call : extractCall line = ""

/-- A line without the field leaves what is known of it. -/
theorem readField_of_none {name line : String} (h : fieldToken? name line = none) (known : String) :
    readField name known line = .ok known := by
  rw [readField, h]
  split <;> rfl

/-- A line with the notation of a text as its field gives that text. -/
theorem readField_of_quote {name line text : String} (h : fieldToken? name line = some (quote text).toList) :
    readField name "" line = .ok text := by
  rw [readField, if_pos rfl, h]
  simp [string?_quote]

/-- The fields of an item are read line by line; the first call is kept. -/
theorem readFields_cons (item : Item) (line : String) {key name : String} (hk : readField "key" item.key line = .ok key)
    (hn : readField "name" item.name line = .ok name) (rest : List String) :
    readFields item (line :: rest) =
      readFields { key, name, call := if item.call = "" then extractCall line else item.call } rest := by
  rw [readFields, hk, hn]
  rfl

/-- An inert line is passed by. -/
theorem readFields_cons_inert {line : String} (h : Inert line) (item : Item) (rest : List String) :
    readFields item (line :: rest) = readFields item rest := by
  rw [readFields_cons item line (readField_of_none h.key _) (readField_of_none h.name _), h.call]
  split
  · next hc => rw [← hc]
  · rfl

/-- Lines with neither a field nor a call make no difference to an item. -/
theorem readFields_append_inert {ls : List String} (h : ∀ l ∈ ls, Inert l) (item : Item) (rest : List String) :
    readFields item (ls ++ rest) = readFields item rest := by
  induction ls with
  | nil => rfl
  | cons l ls ih =>
    rw [List.cons_append, readFields_cons_inert (h l List.mem_cons_self), ih fun m hm => h m (List.mem_cons_of_mem _ hm)]

/-! ## The lines of one item -/

/-- The lines of an item before its key. -/
def itemHead : List String :=
  ["\t\t\x7b"]

/-- The lines of an item after its call, up to the marker. -/
def itemFoot (last : Bool) : List String :=
  ["\t\t\t\x7d", "\t\t\x7d" ++ (if last then "" else ",")]

/-- The line that opens the function of an item. -/
def itemOpen : String :=
  "\t\t\tfn: function scriptsToManage() \x7b"

/-- The lines between the markers of an item. -/
def itemBody (last : Bool) (i : Item) : List String :=
  itemHead ++ [fieldLine "key" i.key, fieldLine "name" i.name, itemOpen] ++ lines ("\t\t\t\t" ++ trim i.call) ++ itemFoot last

/-- The lines of an item are its markers and what stands between them. -/
theorem itemLines_eq (last : Bool) (i : Item) :
    itemLines last i = ("\t\t" ++ Marker.itemStart.line) :: (itemBody last i ++ ["\t\t" ++ Marker.itemStop.line]) := by
  simp [itemLines, itemBody, itemHead, itemFoot, itemOpen, fieldLine]

/-- The line of a call that can be read back. -/
theorem lines_call {i : Item} (h : i.Storable) : lines ("\t\t\t\t" ++ trim i.call) = ["\t\t\t\t" ++ trim i.call] := by
  have hl : IsLine ("\t\t\t\t" ++ trim i.call) := by
    rw [IsLine, String.toList_append, List.mem_append, not_or]
    exact ⟨by decide, h.isLine⟩
  have hls : lines (unlines ["\t\t\t\t" ++ trim i.call]) = ["\t\t\t\t" ++ trim i.call] :=
    lines_unlines (by simp) (by simpa using hl)
  rwa [unlines_singleton] at hls

/-- The lines after the call of an item have neither a field nor a call. -/
theorem inert_of_mem_itemFoot {last : Bool} {l : String} (h : l ∈ itemFoot last) : Inert l := by
  have hall : ∀ b, ∀ l ∈ itemFoot b, fieldToken? "key" l = none ∧ fieldToken? "name" l = none ∧ extractCall l = "" := by
    decide
  obtain ⟨h₁, h₂, h₃⟩ := hall last l h
  exact ⟨h₁, h₂, h₃⟩

/-- The lines before the key of an item have neither a field nor a call. -/
theorem inert_itemHead {l : String} (h : l ∈ ("\t\t" ++ Marker.itemStart.line) :: itemHead) : Inert l := by
  have hall : ∀ l ∈ ("\t\t" ++ Marker.itemStart.line) :: itemHead,
      fieldToken? "key" l = none ∧ fieldToken? "name" l = none ∧ extractCall l = "" := by decide
  obtain ⟨h₁, h₂, h₃⟩ := hall l h
  exact ⟨h₁, h₂, h₃⟩

/-- The line that opens the function of an item has neither a field nor a call. -/
theorem inert_itemOpen : Inert itemOpen :=
  ⟨by decide, by decide, by decide⟩

/-- The end marker of an item has neither a field nor a call. -/
theorem inert_itemStop : Inert ("\t\t" ++ Marker.itemStop.line) :=
  ⟨by decide, by decide, by decide⟩

/-- The line of a field ends with a comma. -/
theorem getLast?_fieldLine (name text : String) : (fieldLine name text).toList.getLast? = some ',' := by
  rw [fieldLine, String.toList_append, List.getLast?_append]
  rfl

/-- The call of an item that can be read back is found in itself. -/
theorem callOf?_of_readable {i : Item} (h : i.Readable) : callOf? (trim i.call) = some (trim i.call) := by
  have he := h.extract
  rw [extractCall] at he
  cases hc : callOf? (trim i.call) with
  | none => rw [hc] at he; exact absurd he.symm h.ne_empty
  | some call => rw [hc] at he; exact congrArg some he

/-- The line of a call has no field. -/
theorem fieldToken?_call {i : Item} (h : i.Storable) {name : String} (hname : name = "key" ∨ name = "name") :
    fieldToken? name ("\t\t\t\t" ++ trim i.call) = none := by
  cases hcall : i.hasCall with
  | false =>
    rw [Item.trim_call_of_not_hasCall hcall]
    rcases hname with rfl | rfl <;> decide
  | true =>
    obtain ⟨_, _, _, _, _, _, hlast⟩ := callOf?_eq_some (callOf?_of_readable (h.readable hcall))
    have hl : ("\t\t\t\t" ++ trim i.call).toList.getLast? = some ';' := by
      rw [String.toList_append, List.getLast?_append, hlast]
      rfl
    exact fieldToken?_of_getLast hl (by decide) (by decide) (by decide)

/-- The line of a call tells the call and nothing else. -/
theorem readFields_cons_call {i item : Item} (h : i.Storable) (hempty : item.call = "") (rest : List String) :
    readFields item (("\t\t\t\t" ++ trim i.call) :: rest) = readFields { item with call := trim i.call } rest := by
  have hkey := readField_of_none (fieldToken?_call h (Or.inl rfl)) item.key
  have hname := readField_of_none (fieldToken?_call h (Or.inr rfl)) item.name
  rw [readFields_cons item _ hkey hname, if_pos hempty, extractCall_tabs, h.extract]

/-- A field line has no call. -/
theorem extractCall_fieldLine (name text : String) : extractCall (fieldLine name text) = "" :=
  extractCall_eq_empty (getLast?_fieldLine name text) (by decide) (by decide)

/-- The key line tells the key and nothing else. -/
theorem readFields_cons_key (text name call : String) (rest : List String) :
    readFields { key := "", name, call } (fieldLine "key" text :: rest) = readFields { key := text, name, call } rest := by
  have hkey : readField "key" "" (fieldLine "key" text) = .ok text :=
    readField_of_quote (fieldToken?_fieldLine (by decide) text)
  have hname : readField "name" name (fieldLine "key" text) = .ok name :=
    readField_of_none (fieldToken?_fieldLine_other (c := 'n') (by decide) (by decide) text) name
  rw [readFields_cons { key := "", name, call } (fieldLine "key" text) hkey hname, extractCall_fieldLine]
  split
  · next hc => simp only at hc; rw [hc]
  · rfl

/-- The name line tells the name and nothing else. -/
theorem readFields_cons_name (key text call : String) (rest : List String) :
    readFields { key, name := "", call } (fieldLine "name" text :: rest) = readFields { key, name := text, call } rest := by
  have hkey : readField "key" key (fieldLine "name" text) = .ok key :=
    readField_of_none (fieldToken?_fieldLine_other (c := 'k') (by decide) (by decide) text) key
  have hname : readField "name" "" (fieldLine "name" text) = .ok text :=
    readField_of_quote (fieldToken?_fieldLine (by decide) text)
  rw [readFields_cons { key, name := "", call } (fieldLine "name" text) hkey hname, extractCall_fieldLine]
  split
  · next hc => simp only at hc; rw [hc]
  · rfl

/-- The lines of an item are read as that item. -/
theorem readFields_itemLines {i : Item} (h : i.Storable) (last : Bool) :
    readFields { call := "" } (itemLines last i) = .ok i.stored := by
  have hlines : itemLines last i = (("\t\t" ++ Marker.itemStart.line) :: itemHead) ++
      fieldLine "key" i.key :: fieldLine "name" i.name :: itemOpen :: ("\t\t\t\t" ++ trim i.call) ::
        (itemFoot last ++ ["\t\t" ++ Marker.itemStop.line]) := by
    simp [itemLines_eq, itemBody, lines_call h]
  rw [hlines, readFields_append_inert fun l hl => inert_itemHead hl, readFields_cons_key, readFields_cons_name,
    readFields_cons_inert inert_itemOpen, readFields_cons_call h rfl,
    readFields_append_inert fun l hl => inert_of_mem_itemFoot hl, readFields_cons_inert inert_itemStop]
  rfl

/-- An item is read from its place among other lines, unless it has no call. -/
theorem toOption_itemOf_itemLines {i : Item} (h : i.Storable) (last : Bool) (before after : List String) :
    (itemOf (before ++ itemLines last i ++ after) (before.length, before.length + (itemLines last i).length - 1)).toOption =
      if i.hasCall then some i.stored else none := by
  rw [itemOf, linesOf_append _ _ _ (by rw [itemLines_eq]; simp), readFields_itemLines h]
  cases hcall : i.hasCall with
  | true => exact congrArg Except.toOption (if_neg (h.readable hcall).ne_empty)
  | false => exact congrArg Except.toOption (if_pos (Item.trim_call_of_not_hasCall hcall))

/-! ## Markers among the lines of a wrapper -/

/-- The line of a field comes to no marker word if its name does not begin like one. -/
theorem tame_fieldLine {name : String} {c : Char} (hc : name.toList.head? = some c)
    (hn : (isBlank c || c == '/') = false) (hS : c ≠ 'S') (text : String) : Tame (fieldLine name text) := by
  obtain ⟨rest, hrest⟩ := List.head?_eq_some_iff.mp hc
  have hcore : core (fieldLine name text) = _ := core_of_append "\t\t\t".toList
    (c :: (rest ++ ':' :: ' ' :: ((quote text).toList ++ [',']))) (by simp [fieldLine, hrest]) (by decide)
  rw [List.dropWhile_cons, if_neg (by simp [hn])] at hcore
  exact tame_of_core hcore hS

/-- The line of a call comes to no marker word. -/
theorem tame_call {i : Item} (h : i.Storable) : Tame ("\t\t\t\t" ++ trim i.call) := by
  cases hcall : i.hasCall with
  | false =>
    rw [Item.trim_call_of_not_hasCall hcall]
    decide
  | true =>
    obtain ⟨_, _, rest, _, _, htext, _⟩ := callOf?_eq_some (callOf?_of_readable (h.readable hcall))
    have hcore : core ("\t\t\t\t" ++ trim i.call) = 'm' :: 'w' :: rest :=
      core_of_append "\t\t\t\t".toList ('m' :: 'w' :: rest) (by rw [String.toList_append, htext]) (by decide)
    exact tame_of_core hcore (by decide)

/-- No line between the markers of an item is a marker. -/
theorem tame_of_mem_itemBody {i : Item} (h : i.Storable) {last : Bool} {l : String} (hl : l ∈ itemBody last i) : Tame l := by
  rw [itemBody, lines_call h] at hl
  simp only [List.mem_append, List.mem_cons, List.not_mem_nil, or_false] at hl
  rcases hl with ((hl | rfl | rfl | rfl) | rfl) | hl
  · revert hl; revert l; decide
  · exact tame_fieldLine (c := 'k') (by decide) (by decide) (by decide) _
  · exact tame_fieldLine (c := 'n') (by decide) (by decide) (by decide) _
  · decide
  · exact tame_call h
  · have hall : ∀ b, ∀ l ∈ itemFoot b, Tame l := by decide
    exact hall last l hl

/-- The items of a wrapper are written one after the other. -/
theorem listLines_cons (i : Item) (rest : List Item) : listLines (i :: rest) = itemLines rest.isEmpty i ++ listLines rest := by
  cases rest with
  | nil => simp [listLines]
  | cons j rest => rfl

/-- The lines of items hold no marker of a wrapper. -/
theorem not_block_of_mem_listLines {items : List Item} (h : ∀ i ∈ items, i.Storable) {l : String} (hl : l ∈ listLines items) :
    Marker.start.marks l = false ∧ Marker.stop.marks l = false := by
  induction items with
  | nil => nomatch hl
  | cons i rest ih =>
    rw [listLines_cons, itemLines_eq, List.mem_append] at hl
    simp only [List.mem_cons, List.mem_append, List.not_mem_nil, or_false] at hl
    rcases hl with (rfl | hl | rfl) | hl
    · decide
    · have ht := tame_of_mem_itemBody (h i List.mem_cons_self) hl
      exact ⟨ht.marks _, ht.marks _⟩
    · decide
    · exact ih (fun j hj => h j (List.mem_cons_of_mem _ hj)) hl

/-- The last lines of the program of a wrapper. -/
def programEnd (delay : Int) : List String :=
  ["\t\x7d, " ++ toString delay ++ ");", "\x7d)();"]

/-- What stands between the markers of a wrapper. -/
def body (items : List Item) (delay : Int) : List String :=
  ["(function () \x7b", "\tconst smCaptureItems = ["] ++ listLines items ++ (programLines ++ programEnd delay)

/-- A wrapper is its two markers and what stands between them. -/
theorem render_eq (items : List Item) (delay : Int) :
    render items delay = Marker.start.line :: (body items delay ++ [Marker.stop.line]) := by
  simp [render, headLines, tailLines, body, programEnd]

/-- A wrapper has lines. -/
theorem render_ne_nil (items : List Item) (delay : Int) : render items delay ≠ [] := by
  simp [render_eq]

/-- No line of the program comes to a marker word. -/
theorem tame_of_mem_programLines : ∀ l ∈ programLines, Tame l := by
  have hword : "SM-CAPTURE".toList = ['S', 'M', '-', 'C', 'A', 'P', 'T', 'U', 'R', 'E'] := rfl
  simp only [programLines, List.forall_mem_cons, List.not_mem_nil, false_implies, implies_true, and_true]
  and_intros
  -- The characters of each line are written out before they are looked at.
  all_goals (rw [Tame, core, hword, String.toList_ofList]; decide)

/-- No line of the program, its end included, comes to a marker word. -/
theorem tame_of_mem_program {delay : Int} {l : String} (hl : l ∈ programLines ++ programEnd delay) : Tame l := by
  rw [List.mem_append] at hl
  rcases hl with hl | hl
  · exact tame_of_mem_programLines l hl
  · simp only [programEnd, List.mem_cons, List.not_mem_nil, or_false] at hl
    rcases hl with rfl | rfl
    · have hcore : core ("\t\x7d, " ++ toString delay ++ ");") = '\x7d' :: ',' :: ' ' :: ((toString delay).toList ++ ");".toList) :=
        core_of_append ['\t'] ('\x7d' :: ',' :: ' ' :: ((toString delay).toList ++ ");".toList)) (by simp) (by decide)
      exact tame_of_core hcore (by decide)
    · decide

/-- Between the markers of a wrapper there is no other block marker. -/
theorem not_block_of_mem_body {items : List Item} (h : ∀ i ∈ items, i.Storable) {delay : Int} {l : String}
    (hl : l ∈ body items delay) : Marker.start.marks l = false ∧ Marker.stop.marks l = false := by
  rw [body, List.mem_append, List.mem_append] at hl
  rcases hl with (hl | hl) | hl
  · revert hl; revert l; decide
  · exact not_block_of_mem_listLines h hl
  · have ht := tame_of_mem_program hl
    exact ⟨ht.marks _, ht.marks _⟩

/-! ## A wrapper on a page -/

/-- The lines of a page that belong to no marker of a wrapper. -/
def Unmarked (ls : List String) : Prop :=
  ∀ l ∈ ls, Marker.start.marks l = false ∧ Marker.stop.marks l = false

/-- The only complete wrapper of a page is the one that was rendered. -/
theorem blocks_render {items : List Item} (h : ∀ i ∈ items, i.Storable) (delay : Int) {pre post : List String}
    (hpre : Unmarked pre) (hpost : Unmarked post) :
    blocks (pre ++ render items delay ++ post) = [(pre.length, pre.length + (render items delay).length - 1)] := by
  rw [blocks, List.append_assoc, rangesFrom_append hpre, render_eq, List.cons_append, List.append_assoc, List.singleton_append,
    rangesFrom_block (by decide) (fun l hl => not_block_of_mem_body h hl) (by decide),
    rangesFrom_of_no_marker hpost]
  simp [Nat.add_assoc]

/-- The items between item markers are read in their order, those without a call left out. -/
theorem readItems_listLines {items : List Item} (h : ∀ i ∈ items, i.Storable) {more : List String}
    (hmore : ∀ l ∈ more, Marker.itemStart.marks l = false ∧ Marker.itemStop.marks l = false) (before after : List String) :
    readItems (before ++ listLines items ++ after)
      (rangesFrom .itemStart .itemStop before.length none (listLines items ++ more)) =
        (items.filter Item.hasCall).map Item.stored := by
  induction items generalizing before with
  | nil => rw [listLines, List.nil_append, rangesFrom_of_no_marker hmore]; rfl
  | cons i rest ih =>
    have hi := h i List.mem_cons_self
    have hlen : (itemLines rest.isEmpty i).length = (itemBody rest.isEmpty i).length + 2 := by simp [itemLines_eq]
    have hread := toOption_itemOf_itemLines hi rest.isEmpty before (listLines rest ++ after)
    have hrest := ih (fun j hj => h j (List.mem_cons_of_mem _ hj)) (before ++ itemLines rest.isEmpty i)
    rw [List.length_append, hlen, ← Nat.add_assoc] at hrest
    rw [hlen, show before.length + ((itemBody rest.isEmpty i).length + 2) - 1 =
      before.length + (itemBody rest.isEmpty i).length + 1 by omega] at hread
    have hlines : before ++ listLines (i :: rest) ++ after = before ++ itemLines rest.isEmpty i ++ (listLines rest ++ after) := by
      simp [listLines_cons]
    have hranges : rangesFrom .itemStart .itemStop before.length none (listLines (i :: rest) ++ more) =
        (before.length, before.length + (itemBody rest.isEmpty i).length + 1) ::
          rangesFrom .itemStart .itemStop (before.length + (itemBody rest.isEmpty i).length + 2) none (listLines rest ++ more) := by
      rw [listLines_cons, itemLines_eq, List.append_assoc, List.cons_append, List.append_assoc, List.singleton_append]
      refine rangesFrom_block (by decide) ?_ (by decide) _ _ _
      intro l hl
      have ht := tame_of_mem_itemBody hi hl
      exact ⟨ht.marks _, ht.marks _⟩
    rw [hranges, hlines, readItems, List.filterMap_cons, hread, ← readItems, ← List.append_assoc, hrest]
    cases hcall : i.hasCall with
    | true => rw [List.filter_cons_of_pos hcall, List.map_cons, if_pos rfl]
    | false => rw [List.filter_cons_of_neg (by simp [hcall]), if_neg Bool.false_ne_true]

/-- After the items of a wrapper there is no item marker. -/
theorem not_item_of_mem_tailLines {delay : Int} {l : String} (hl : l ∈ tailLines delay) :
    Marker.itemStart.marks l = false ∧ Marker.itemStop.marks l = false := by
  have heq : tailLines delay = (programLines ++ programEnd delay) ++ [Marker.stop.line] := by simp [tailLines, programEnd]
  rw [heq, List.mem_append, List.mem_singleton] at hl
  rcases hl with hl | rfl
  · have ht := tame_of_mem_program hl
    exact ⟨ht.marks _, ht.marks _⟩
  · decide

/-- What stands between the item markers of a rendered wrapper are its items with a call. -/
theorem readItems_render {items : List Item} (h : ∀ i ∈ items, i.Storable) (delay : Int) (pre post : List String) :
    readItems (pre ++ render items delay ++ post)
      (itemRanges (pre ++ render items delay ++ post) (pre.length, pre.length + (render items delay).length - 1)) =
        (items.filter Item.hasCall).map Item.stored := by
  have hlines := linesOf_append pre (render items delay) post (render_ne_nil items delay)
  have hranges : itemRanges (pre ++ render items delay ++ post) (pre.length, pre.length + (render items delay).length - 1) =
      rangesFrom .itemStart .itemStop (pre ++ headLines).length none (listLines items ++ tailLines delay) := by
    rw [itemRanges, hlines, List.length_append]
    have hhead : ∀ l ∈ headLines, Marker.itemStart.marks l = false ∧ Marker.itemStop.marks l = false := by decide
    rw [render, List.append_assoc]
    exact rangesFrom_append hhead _ _ _
  have htail : ∀ l ∈ tailLines delay, Marker.itemStart.marks l = false ∧ Marker.itemStop.marks l = false :=
    fun l hl => not_item_of_mem_tailLines hl
  have hitems := readItems_listLines h htail (pre ++ headLines) (tailLines delay ++ post)
  have hpage : pre ++ headLines ++ listLines items ++ (tailLines delay ++ post) = pre ++ render items delay ++ post := by
    simp [render]
  rwa [hpage, ← hranges] at hitems

end Wrapper

end UserScripts
