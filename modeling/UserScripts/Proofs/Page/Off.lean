import UserScripts.Proofs.Page.Layout
import UserScripts.Proofs.Page.Removal
import UserScripts.Proofs.Page.Rewritten
import UserScripts.Proofs.Statement.Kept
import UserScripts.Proofs.Statement.Recognized
import UserScripts.Proofs.Wrapper.Unclosed

/-!
# Scripts that are switched off

A script is switched off on a page if every line outside the wrappers that loads it is commented out and no wrapper has an item for
it. It stays switched off when lines outside the wrappers are dropped, and so when it is removed. A statement that is added to the page
switches it on unless it is commented out itself or is no statement of the script when it is read back, and taking the script into the
wrapper always does. Main statements: `IsOff.removal`, `isOff_withStatement_iff` and `exists_item_of_capture`.
-/

namespace UserScripts

open UserScripts.Text

variable {ls : List String} {e : Entry} {s : Settings}

namespace Wrapper

/-- Every item that can be read in the wrappers of a page, also one that has the signature of an earlier one. -/
def allItems (ls : List String) : List Item :=
  (blocks ls).flatMap (itemsOf ls)

/-- An item that is read from a page is one of those in its wrappers. -/
theorem mem_allItems_of_mem_decode {item : Item} (h : item ∈ decode ls) : item ∈ allItems ls :=
  (Item.dedupeFrom_sublist [] _).subset h

/-- All items of a page, like those that count, depend on nothing but the lines of its wrappers. -/
theorem allItems_congr {new : List String} (h : blockLines new = blockLines ls) : allItems new = allItems ls := by
  have hlines : ∀ ls, allItems ls = (blockLines ls).flatMap itemsIn := by
    intro ls
    rw [allItems, ← map_linesOf_blocks, List.flatMap_map]
    exact List.flatMap_congr fun r hr => itemsOf_eq hr
  rw [hlines, hlines, h]

/-- Lines without markers after a page add no run. -/
theorem runsFrom_append_unmarked {opens closes : Marker} {more : List String}
    (h : ∀ l ∈ more, opens.marks l = false ∧ closes.marks l = false) (run : Option (List String)) (ls : List String) :
    runsFrom opens closes run (ls ++ more) = runsFrom opens closes run ls := by
  have hmore : ∀ run, runsFrom opens closes run more = [] := by
    induction more with
    | nil => exact fun _ => rfl
    | cons l more ih =>
      intro run
      rw [List.forall_mem_cons] at h
      rw [runsFrom, if_neg (by simp [h.1.1]), if_neg (by simp [h.1.2])]
      exact ih h.2 _
  induction ls generalizing run with
  | nil => exact hmore run
  | cons l ls ih => simp only [List.cons_append, runsFrom, ih]

/-- A page has the same wrappers when the blank lines at its end give way to lines that are no markers. -/
theorem blockLines_end {more : List String} (h : Unmarked more) : blockLines (dropEndBlankLines ls ++ more) = blockLines ls := by
  obtain ⟨tail, htail, hblank⟩ := exists_dropEndBlankLines_append ls
  have hunmarked : Unmarked tail := by
    intro l hl
    refine ⟨?_, ?_⟩
    all_goals
      rw [← Bool.not_eq_true]
      intro hmarks
      have := isBlankLine_of_marks hmarks
      rw [hblank l hl] at this
      cases this
  rw [blockLines, runsFrom_append_unmarked h]
  nth_rewrite 2 [htail]
  rw [blockLines, runsFrom_append_unmarked hunmarked]

/-- No wrapper reaches into lines at the end that are no markers. -/
theorem covers_end {more : List String} (h : Unmarked more) (d : Nat) : covers (ls ++ more) (ls.length + d) = false := by
  rw [← Bool.not_eq_true, covers_iff]
  rintro ⟨r, hr, -, hle⟩
  have hlast := (mem_blocks.mp hr).last
  obtain ⟨k, hk⟩ := Nat.exists_eq_add_of_le (Nat.le_of_add_right_le hle)
  rw [hk, Marker.stands_append_right, (not_stands_of_unmarked h k).2] at hlast
  cases hlast

/-- A wrapper at the end of a page is a complete one, whatever stands before it. -/
theorem mem_blocks_render {items : List Item} (h : ∀ i ∈ items, i.Storable) (delay : Int) (pre : List String) :
    (pre.length, pre.length + (render items delay).length - 1) ∈ blocks (pre ++ render items delay) := by
  have hlength : 1 < (render items delay).length := by
    rw [render_eq]
    simp
  have hlast : pre.length + (render items delay).length - 1 = pre.length + ((render items delay).length - 1) := by omega
  rw [mem_blocks, hlast]
  refine ⟨by simp only; omega, ?_, ?_, fun k h₁ h₂ => ?_⟩
  · have hfirst := Marker.stands_append_right .start pre (render items delay) 0
    rw [Nat.add_zero] at hfirst
    rw [hfirst, (stands_render h delay 0).1]
  · rw [Marker.stands_append_right, (stands_render h delay _).2]
    omega
  · obtain ⟨d, rfl⟩ := Nat.exists_eq_add_of_le (Nat.le_of_lt h₁)
    have hd := stands_render h delay d
    simp only at h₁ h₂
    rw [Marker.stands_append_right, Marker.stands_append_right, ← Bool.not_eq_true, ← Bool.not_eq_true, hd.1, hd.2]
    omega

/-- What is rendered at the end of a page can be read there. -/
theorem stored_mem_allItems {items : List Item} (h : ∀ i ∈ items, i.Storable) (delay : Int) (pre : List String) {item : Item}
    (hitem : item ∈ items) (hcall : item.hasCall = true) : item.stored ∈ allItems (pre ++ render items delay) := by
  refine List.mem_flatMap.mpr ⟨_, mem_blocks_render h delay pre, ?_⟩
  have hread := itemsOf_rendered h delay pre []
  rw [List.append_nil] at hread
  rw [hread]
  exact List.mem_map_of_mem (List.mem_filter.mpr ⟨hitem, hcall⟩)

end Wrapper

namespace Page

open UserScripts.Wrapper

/-! ## Lines that stay in a wrapper -/

/-- A kept line of a wrapper is a line of a wrapper still if no line of the wrappers is removed and no marker is added. -/
theorem Layout.Keeps.covers_page {l : Layout} {old : List String} {removed : Nat → Bool} {i k : Nat} (h : l.Keeps removed old)
    (hadded : Unmarked l.added) (hremoved : ∀ i, covers old i = true → removed i = false) (hi : l.origin k = some i)
    (hcovers : covers old i = true) : covers (l.page old) k = true := by
  obtain ⟨r, hr, h₁, h₂⟩ := covers_iff.mp hcovers
  have hdelimits := mem_blocks.mp hr
  have hwhole : ∀ {j}, r.1 ≤ j → j ≤ r.2 → removed j = false := fun h₁ h₂ => hremoved _ (covers_iff.mpr ⟨r, hr, h₁, h₂⟩)
  have hle := Nat.le_of_lt hdelimits.lt
  obtain ⟨a, ha⟩ := h.exists_origin (hwhole (Nat.le_refl _) hle) (Or.inl hdelimits.first)
  obtain ⟨b, hb⟩ := h.exists_origin (hwhole hle (Nat.le_refl _)) (Or.inr hdelimits.last)
  have hpage : Delimits .start .stop (l.page old) (a, b) := by
    refine ⟨h.lt_of_origin_lt ha hb hdelimits.lt, ?_, ?_, fun c hac hcb => ?_⟩
    · rw [h.stands_page ha, hdelimits.first]
    · rw [h.stands_page hb, hdelimits.last]
    · cases hc : l.origin c with
      | some j =>
        rw [h.stands_page hc, h.stands_page hc]
        exact hdelimits.between j (h.lt ha hc hac) (h.lt hc hb hcb)
      | none =>
        have hlength : c < (l.page old).length := by
          have hlt := (h.of_origin hb).1
          have hline := h.getElem?_page hb
          rw [List.getElem?_eq_getElem hlt] at hline
          exact Nat.lt_trans hcb (List.getElem?_eq_some_iff.mp hline).1
        obtain ⟨d, hd, rfl⟩ := Layout.exists_added hlength hc
        rw [Layout.stands_page_added l old _ hd, Layout.stands_page_added l old _ hd]
        exact not_stands_of_unmarked hadded d
  exact covers_iff.mpr ⟨(a, b), mem_blocks.mpr hpage, h.le_of_origin_le ha hi h₁, h.le_of_origin_le hi hb h₂⟩

/-! ## Scripts that are switched off -/

/-- Nothing on a page that loads a script runs. -/
structure IsOff (ls : List String) (e : Entry) (s : Settings) : Prop where
  lines : ∀ i line, ls[i]? = some line → covers ls i = false → loadsScript e s line = true → isDisabled line = true
  items : ∀ item ∈ allItems ls, item.holds e s = false

/-- Whether nothing that loads a script runs can be told line by line and item by item. -/
theorem isOff_iff : IsOff ls e s ↔
    (∀ l ∈ ls.zipIdx, covers ls l.2 = false → loadsScript e s l.1 = true → isDisabled l.1 = true) ∧
      ∀ item ∈ allItems ls, item.holds e s = false :=
  ⟨fun h => ⟨fun l hl => h.lines l.2 l.1 (List.mem_zipIdx_iff_getElem?.mp hl), h.items⟩,
    fun h => ⟨fun i line hline => h.1 (line, i) (List.mem_zipIdx_iff_getElem?.mpr hline), h.2⟩⟩

instance (ls : List String) (e : Entry) (s : Settings) : Decidable (IsOff ls e s) :=
  decidable_of_iff' _ isOff_iff

/-- A line is switched off exactly if slashes are dropped in front of it. -/
theorem dropSlashes_fst (line : String) : (Statement.dropSlashes line.toList).1 = isDisabled line := by
  rw [isDisabled, show "//".toList = ['/', '/'] from rfl]
  unfold Statement.dropSlashes
  split
  · next rest hrest => rw [hrest]; rfl
  · next hnone =>
    rw [eq_comm, Option.isSome_eq_false_iff, Option.isNone_iff_eq_none, Option.eq_none_iff_forall_ne_some]
    exact fun rest hrest => hnone rest (after?_eq_some.mp hrest)

/-- Of a statement it is read just so whether it is commented out. -/
theorem disabled_of_ofLine? {line target : String} {parsed : Entry} (h : Entry.ofLine? line target = some parsed) :
    parsed.disabled = isDisabled line := by
  obtain ⟨statement, hstatement, rfl⟩ := Option.map_eq_some_iff.mp h
  rw [Statement.ofLine?_eq_bind, Option.bind_eq_some_iff] at hstatement
  obtain ⟨⟨callee, ahead⟩, -, hcall⟩ := hstatement
  rw [(entry_of_statement statement target).2.2, (Statement.call?_eq_some.mp hcall).1, dropSlashes_fst]

/-- A page of one empty line runs nothing. -/
theorem isOff_empty (e : Entry) (s : Settings) : IsOff [""] e s := by
  refine ⟨fun i line hline _ hloads => ?_, fun item hitem => by cases hitem⟩
  obtain rfl : line = "" := by simpa using List.mem_of_getElem? hline
  rw [loadsScript_of_blank (by decide) e s] at hloads
  cases hloads

/-- Dropping lines outside the wrappers switches nothing on. -/
theorem IsOff.dropLines (h : IsOff ls e s) {drop : Nat → Bool} (hdrop : ∀ i, covers ls i = true → drop i = false) :
    IsOff (dropLines drop ls) e s := by
  refine ⟨fun k line hline hcovers hloads => ?_, ?_⟩
  · obtain ⟨l, hpage, hadded, -, hkeeps⟩ :=
      Layout.exists_layout (List.append_nil (Text.dropLines drop ls)).symm (List.forall_mem_nil _) []
    rw [List.append_nil] at hpage
    rw [← hpage] at hline hcovers
    cases hk : l.origin k with
    | none =>
      obtain ⟨d, hd, -⟩ := Layout.exists_added (List.getElem?_eq_some_iff.mp hline).1 hk
      rw [hadded] at hd
      cases hd
    | some i =>
      have hold : covers ls i = false := by
        rw [← Bool.not_eq_true]
        intro hold
        rw [hkeeps.covers_page (by rw [hadded]; exact List.forall_mem_nil _) hdrop hk hold] at hcovers
        cases hcovers
      rw [hkeeps.getElem?_page hk] at hline
      exact h.lines i line hline hold hloads
  · rw [allItems_congr (blockLines_dropLines hdrop)]
    exact h.items

/-- A script that is switched off is removed by dropping lines, and what is left of it is switched off still. -/
theorem IsOff.removal (h : IsOff ls e s) (hlines : ∀ l ∈ ls, IsLine l) {r : Removal} (hr : removal ls e s = .ok r) (delay : Int) :
    IsOff (Text.lines (unlines (r.apply ls delay))) e s := by
  have hitems : r.items = none := by
    rw [(removal_ok hr).2, if_neg]
    rw [Bool.not_eq_true, List.any_eq_false]
    exact fun item hitem => by rw [h.items item (mem_allItems_of_mem_decode hitem)]; exact Bool.false_ne_true
  have hoff : IsOff (r.apply ls delay) e s := by
    rw [Removal.apply, hitems]
    exact h.dropLines fun i hi => drops_of_not_mem hr hi
  rcases lines_apply hr hlines delay with hsame | ⟨-, hempty⟩
  · rw [hsame]
    exact hoff
  · rw [hempty]
    exact isOff_empty e s

/-! ## A statement at the end -/

/-- A statement of a script counts for it as a statement, and not by its title. -/
theorem loadsScript_of_ofLine? {line : String} {parsed : Entry} (h : Entry.ofLine? line e.target = some parsed) :
    loadsScript e s line = parsed.sameScript e s := by
  have htitle : byTitle e line = false := by
    unfold byTitle
    split
    · rw [loadsTitle, h, Option.isNone_some, Bool.and_false]
    · rfl
  rw [loadsScript, htitle, Bool.or_false, byStatement, h, Option.any_some]

/-- A statement that is added to a page switches its script on unless it is commented out or is that of another script. -/
theorem isOff_append_iff (h : IsOff ls e s) {text : String} {parsed : Entry} (hread : Entry.ofLine? text e.target = some parsed) :
    IsOff (dropEndBlankLines ls ++ [text, ""]) e s ↔ parsed.disabled = true ∨ parsed.sameScript e s = false := by
  have hadded : Unmarked [text, ""] :=
    unmarked_append (unmarked_of_tame (tame_of_ofLine? hread)) (unmarked_of_tame (by decide))
  rw [disabled_of_ofLine? hread, ← loadsScript_of_ofLine? hread]
  constructor
  · intro hoff
    have hline : (dropEndBlankLines ls ++ [text, ""])[(dropEndBlankLines ls).length + 0]? = some text := by simp
    by_contra hon
    rw [not_or, Bool.not_eq_false] at hon
    exact hon.1 (hoff.lines _ text hline (covers_end hadded 0) hon.2)
  · intro hstatement
    refine ⟨fun k line hline hcovers hloads => ?_, ?_⟩
    · obtain ⟨l, hpage, hl, -, hkeeps⟩ := Layout.exists_layout_end (fun _ => false) ls [text, ""]
      rw [show Text.dropLines (fun _ => false) ls = ls from dropLinesFrom_none 0 ls] at hpage
      rw [← hpage] at hline hcovers
      cases hk : l.origin k with
      | none =>
        obtain ⟨d, hd, rfl⟩ := Layout.exists_added (List.getElem?_eq_some_iff.mp hline).1 hk
        rw [Layout.getElem?_page_added l ls hd, hl] at hline
        rcases List.mem_pair.mp (List.mem_of_getElem? hline) with rfl | rfl
        · exact hstatement.resolve_right (by simp [hloads])
        · rw [loadsScript_of_blank (by decide) e s] at hloads
          cases hloads
      | some i =>
        have hold : covers ls i = false := by
          rw [← Bool.not_eq_true]
          intro hold
          rw [hkeeps.covers_page (by rw [hl]; exact hadded) (fun _ _ => rfl) hk hold] at hcovers
          cases hcovers
        rw [hkeeps.getElem?_page hk] at hline
        exact h.lines i line hline hold hloads
    · rw [allItems_congr (blockLines_end hadded)]
      exact h.items

/-! ## An item in the wrapper -/

/-- Capturing a script puts an item for it into a wrapper of the page, whatever is on the page. -/
theorem exists_item_of_capture (hlines : ∀ l ∈ ls, IsLine l) {name : Option String} {new : List String}
    (h : capture ls e name s = .ok new) :
    ∃ item ∈ allItems (lines (unlines new)), item.key = e.key ∧ item.holds e s = true := by
  obtain ⟨item, hitem, rfl⟩ := capture_ok h
  have hreadable := Item.readable_ofEntry hitem
  have hstorable : ∀ i ∈ (decode ls).filter (fun i => !i.holds e s) ++ [item], i.Storable := by
    intro i hi
    rcases List.mem_append.mp hi with hi | hi
    · exact (read_of_mem_decode hlines (List.mem_of_mem_filter hi)).1.toStorable
    · rw [List.mem_singleton.mp hi]
      exact hreadable.toStorable
  have hmem : item ∈ (decode ls).filter (fun i => !i.holds e s) ++ [item] := List.mem_append_right _ List.mem_cons_self
  have hstored : item.stored.key = e.key := (Item.ofEntry_ok hitem).2
  refine ⟨item.stored, ?_, hstored, Item.holds_of_key hstored s⟩
  rw [append_eq (List.ne_nil_of_mem hmem), ← List.append_assoc, lines_unlines]
  · exact stored_mem_allItems hstorable s.fallbackDelay _ hmem hreadable.hasCall
  · exact List.append_ne_nil_of_right_ne_nil _ (render_ne_nil _ _)
  · intro l hl
    rw [List.mem_append, List.mem_append] at hl
    rcases hl with (hl | hl) | hl
    · exact hlines l (mem_of_mem_dropLinesFrom (mem_of_mem_dropEndBlankLines hl))
    · exact isLine_of_mem_separator hl
    · exact isLine_of_mem_render hl

end Page

end UserScripts
