import UserScripts.Proofs.Wrapper.Render

/-!
# Reading a rendered wrapper back

Reading a page with one rendered wrapper gives the items that were rendered, whatever their keys and names are and whatever stands
around the wrapper, but for those that call nothing: an item without a call is left out, and a wrapper in which nothing is called
holds no items. Main statement: `decode_rendered`.
-/

namespace UserScripts.Wrapper

open UserScripts.Text

/-! ## Lines without a call -/

/-- A line without an m has no call. -/
theorem callOf?_eq_none {line : String} (h : 'm' ∉ line.toList) : callOf? line = none := by
  cases hc : callOf? line with
  | none => rfl
  | some call =>
    obtain ⟨p, b, rest, hline, -, hcall, -⟩ := callOf?_eq_some hc
    refine absurd ?_ h
    rw [hline, hcall]
    simp

/-- A number is written without letters. -/
theorem letter_not_mem_toString (i : Int) : 'm' ∉ (toString i).toList := by
  have hnat : ∀ n : Nat, 'm' ∉ n.repr.toList := by
    intro n h
    rw [Nat.toList_repr] at h
    exact absurd (Nat.isDigit_of_mem_toDigits (by decide) (by decide) h) (by decide)
  rw [Int.toString_eq_repr, Int.repr_eq_if]
  split
  · exact hnat _
  · rw [String.toList_append, List.mem_append, not_or]
    exact ⟨by decide, hnat _⟩

/-- The lines of an item hold its call and no other one. -/
theorem extractCall_of_mem_itemLines {i : Item} (h : i.Storable) (hcall : i.hasCall = false) {last : Bool} {l : String}
    (hl : l ∈ itemLines last i) : extractCall l = "" := by
  rw [itemLines_eq, itemBody, lines_call h, Item.trim_call_of_not_hasCall hcall] at hl
  simp only [List.mem_cons, List.mem_append, List.not_mem_nil, or_false] at hl
  rcases hl with rfl | ((((hl | rfl | rfl | rfl) | rfl) | hl) | rfl)
  · exact (inert_itemHead List.mem_cons_self).call
  · exact (inert_itemHead (List.mem_cons_of_mem _ hl)).call
  · exact extractCall_fieldLine _ _
  · exact extractCall_fieldLine _ _
  · exact inert_itemOpen.call
  · decide
  · exact (inert_of_mem_itemFoot hl).call
  · exact inert_itemStop.call

/-- The program of a wrapper has no call of a script. -/
theorem extractCall_of_mem_programLines : ∀ l ∈ programLines, extractCall l = "" := by
  have hcallee : "mw".toList = ['m', 'w'] := rfl
  simp only [programLines, List.forall_mem_cons, List.not_mem_nil, false_implies, implies_true, and_true]
  and_intros
  all_goals (rw [extractCall, callOf?, hcallee, String.toList_ofList]; decide)

/-- The lines around the items call nothing that could be taken for a load call. -/
theorem extractCall_of_mem_frame {delay : Int} {l : String} (hl : l ∈ headLines ++ tailLines delay) : extractCall l = "" := by
  rw [tailLines, List.mem_append, List.mem_append] at hl
  rcases hl with hl | hl | hl
  · revert hl; revert l; decide
  · exact extractCall_of_mem_programLines l hl
  · simp only [List.mem_cons, List.not_mem_nil, or_false] at hl
    rcases hl with rfl | rfl | rfl
    · rw [extractCall, callOf?_eq_none]
      · rfl
      · rw [String.toList_append, String.toList_append, List.mem_append, List.mem_append, not_or, not_or]
        exact ⟨⟨by decide, letter_not_mem_toString delay⟩, by decide⟩
    · decide
    · decide

/-- A wrapper whose items call nothing calls nothing. -/
theorem extractCall_of_mem_render {items : List Item} (h : ∀ i ∈ items, i.Storable) (hcalls : ∀ i ∈ items, i.hasCall = false)
    {delay : Int} {l : String} (hl : l ∈ render items delay) : extractCall l = "" := by
  have hlist : ∀ items : List Item, (∀ i ∈ items, i.Storable) → (∀ i ∈ items, i.hasCall = false) →
      ∀ l ∈ listLines items, extractCall l = "" := by
    intro items
    induction items with
    | nil => intro _ _ l hl; nomatch hl
    | cons i rest ih =>
      intro h hcalls l hl
      rw [listLines_cons, List.mem_append] at hl
      rcases hl with hl | hl
      · exact extractCall_of_mem_itemLines (h i List.mem_cons_self) (hcalls i List.mem_cons_self) hl
      · exact ih (fun j hj => h j (List.mem_cons_of_mem _ hj)) (fun j hj => hcalls j (List.mem_cons_of_mem _ hj)) l hl
  rw [render, List.mem_append, List.mem_append] at hl
  rcases hl with (hl | hl) | hl
  · exact @extractCall_of_mem_frame delay l (List.mem_append_left _ hl)
  · exact hlist items h hcalls l hl
  · exact extractCall_of_mem_frame (List.mem_append_right _ hl)

/-! ## Ranges without a call -/

/-- Lines without calls leave an item without one. -/
theorem readFields_call {item read : Item} {ls : List String} (h : ∀ l ∈ ls, extractCall l = "") (hempty : item.call = "")
    (hread : readFields item ls = .ok read) : read.call = "" := by
  induction ls generalizing item with
  | nil =>
    rw [← Except.ok.inj hread]
    exact hempty
  | cons l ls ih =>
    rw [readFields] at hread
    cases hkey : readField "key" item.key l with
    | error defect => rw [hkey] at hread; cases hread
    | ok key =>
      cases hname : readField "name" item.name l with
      | error defect => rw [hkey, hname] at hread; cases hread
      | ok name =>
        rw [hkey, hname] at hread
        refine ih (fun m hm => h m (List.mem_cons_of_mem _ hm)) ?_ hread
        show (if item.call = "" then extractCall l else item.call) = ""
        rw [if_pos hempty]
        exact h l List.mem_cons_self

/-- Lines without a call are not an item. -/
theorem readItems_singleton {ls : List String} {r : Range} (h : ∀ l ∈ linesOf ls r, extractCall l = "") :
    readItems ls [r] = [] := by
  have hnone : (itemOf ls r).toOption = none := by
    rw [itemOf]
    cases hread : readFields { call := "" } (linesOf ls r) with
    | error defect => rfl
    | ok read => exact congrArg Except.toOption (if_pos (readFields_call h rfl hread))
  rw [readItems, List.filterMap_cons, hnone, List.filterMap_nil]

/-! ## The whole wrapper -/

/-- What is read from a page with one rendered wrapper: the items that call something, or the wrapper as a whole. -/
theorem itemsOf_rendered {items : List Item} (h : ∀ i ∈ items, i.Storable) (delay : Int) (pre post : List String) :
    itemsOf (pre ++ render items delay ++ post) (pre.length, pre.length + (render items delay).length - 1) =
      (items.filter Item.hasCall).map Item.stored := by
  rw [itemsOf, readItems_render h delay pre post]
  cases hcalls : (items.filter Item.hasCall).map Item.stored with
  | cons first others => rfl
  | nil =>
    -- Nothing can be read between item markers, so the wrapper is read as a whole.
    have hnone : ∀ i ∈ items, i.hasCall = false := by
      intro i hi
      rw [← Bool.not_eq_true]
      exact List.filter_eq_nil_iff.mp (List.map_eq_nil_iff.mp hcalls) i hi
    refine readItems_singleton ?_
    rw [linesOf_append pre (render items delay) post (render_ne_nil items delay)]
    exact fun l hl => extractCall_of_mem_render h hnone hl

/-- The items of a page with one rendered wrapper and no other one are those of the rendered items that call something. -/
theorem decode_render {items : List Item} (h : ∀ i ∈ items, i.Storable) (delay : Int) {pre post : List String}
    (hpre : ∀ l ∈ pre, Marker.start.marks l = false ∧ Marker.stop.marks l = false)
    (hpost : ∀ l ∈ post, Marker.start.marks l = false ∧ Marker.stop.marks l = false) :
    decode (pre ++ render items delay ++ post) = Item.dedupe ((items.filter Item.hasCall).map Item.stored) := by
  rw [decode, blocks_render h delay hpre hpost, List.flatMap_cons, List.flatMap_nil, List.append_nil,
    itemsOf_rendered h delay pre post]

/-- Decoding undoes rendering on any page. Keys and names come back as they were, calls without the blanks around them, and an item
that calls nothing does not come back. -/
theorem decode_rendered {items : List Item}
    (h : ∀ i ∈ items, '\n' ∉ (trim i.call).toList ∧ extractCall (trim i.call) = trim i.call) (delay : Int) {pre post : List String}
    (hpre : ∀ l ∈ pre, Marker.start.marks l = false ∧ Marker.stop.marks l = false)
    (hpost : ∀ l ∈ post, Marker.start.marks l = false ∧ Marker.stop.marks l = false) :
    decode (pre ++ render items delay ++ post) =
      Item.dedupe ((items.filter fun i => trim i.call != "").map fun i => { i with call := trim i.call }) :=
  decode_render (fun i hi => ⟨(h i hi).1, (h i hi).2⟩) delay hpre hpost

/-- Keys and names that look like markers, fields and calls, between lines with item markers. -/
theorem decode_rendered_hostile :
    let first : Item := { key := "\"key: \\\"", name := "// SM-CAPTURE-END\nname: \"x\",", call := " mw.loader.load('/a', '\"'); " }
    let silent : Item := { key := "mw.loader.load('/b');", name := "b", call := "\t" }
    let third : Item := { key := "", name := "key: \"c\"", call := "mw . loader.load('/c') ;" }
    decode (["// SM-CAPTURE-ITEM-START", "f();"] ++ render [first, silent, third, first] (-5) ++ ["// SM-CAPTURE-ITEM-END"]) =
      [{ first with call := "mw.loader.load('/a', '\"');" }, third] := by
  intro first silent third
  have hitems : ∀ i ∈ [first, silent, third, first], '\n' ∉ (trim i.call).toList ∧ extractCall (trim i.call) = trim i.call := by decide
  have hpre : ∀ l ∈ ["// SM-CAPTURE-ITEM-START", "f();"], Marker.start.marks l = false ∧ Marker.stop.marks l = false := by decide
  have hpost : ∀ l ∈ ["// SM-CAPTURE-ITEM-END"], Marker.start.marks l = false ∧ Marker.stop.marks l = false := by decide
  exact (decode_rendered hitems (-5) hpre hpost).trans (by decide)

/-- An item that calls nothing is lost although no call can be found in its call. -/
theorem decode_rendered_without_call :
    let i : Item := { key := "k", name := "n", call := "" }
    '\n' ∉ (trim i.call).toList ∧ extractCall (trim i.call) = trim i.call ∧
      decode ([] ++ render [i] defaultDelay ++ []) ≠ Item.dedupe [{ i with call := trim i.call }] := by
  intro i
  have hcall : '\n' ∉ (trim i.call).toList ∧ extractCall (trim i.call) = trim i.call := by decide
  refine ⟨hcall.1, hcall.2, ?_⟩
  rw [decode_render (by simpa using (⟨hcall.1, hcall.2⟩ : i.Storable)) defaultDelay (by simp) (by simp)]
  decide

end UserScripts.Wrapper
