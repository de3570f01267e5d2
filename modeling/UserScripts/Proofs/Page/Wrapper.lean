import UserScripts.Proofs.Page.Change
import UserScripts.Proofs.Wrapper.Place
import UserScripts.Proofs.Wrapper.RoundTrip

/-!
# Pages with at most one wrapper

The invariant of a page that only this library writes wrappers to: either it has no marker at all, or it is one freshly rendered
wrapper among lines that can never become markers. Every change of the lines keeps it. Main definitions: `Page.Holds`, the
invariant with the items that the page holds, and `Page.Intact`, what a reader of the page sees of it. Main statements:
`Holds.decode`, `Holds.intact`, and that the invariant is kept when lines are changed (`Holds.mapIdx`), dropped
(`Holds.dropLines`) or added (`Holds.concat`) and when the wrapper is written anew (`holds_append` and `Holds.replaceFrom`).
-/

namespace UserScripts.Page

open UserScripts.Text UserScripts.Wrapper

/-- A line that can never become a marker. -/
structure Outside (l : String) : Prop where
  tame : Tame l
  isLine : IsLine l

/-- The page of these lines holds these items: none and no marker, or some in one rendered wrapper. -/
inductive Holds (delay : Int) : List Item → List String → Prop where
  | bare {ls : List String} (outside : ∀ l ∈ ls, Outside l) : Holds delay [] ls
  | wrapped {items : List Item} {pre post : List String} (ne_nil : items ≠ []) (stable : ∀ i ∈ items, i.Stable)
      (keys : (items.map Item.key).Nodup) (before : ∀ l ∈ pre, Outside l) (after : ∀ l ∈ post, Outside l) :
      Holds delay items (pre ++ render items delay ++ post)

/-- The page has no complete wrapper and no items, or one complete wrapper, which is written as its items say. -/
def Intact (delay : Int) (ls : List String) : Prop :=
  (blocks ls = [] ∧ decode ls = []) ∨ ∃ r, blocks ls = [r] ∧ linesOf ls r = render (decode ls) delay

/-! ## What the invariant says -/

/-- Lines that can never become markers are none. -/
theorem unmarked_of_outside {ls : List String} (h : ∀ l ∈ ls, Outside l) : Unmarked ls :=
  fun l hl => ⟨(h l hl).tame.marks _, (h l hl).tame.marks _⟩

/-- Lines that can never become markers have no complete wrapper. -/
theorem blocks_of_outside {ls : List String} (h : ∀ l ∈ ls, Outside l) : blocks ls = [] :=
  rangesFrom_of_no_marker (unmarked_of_outside h) 0 none

/-- Lines that can never become markers have no items. -/
theorem decode_of_outside {ls : List String} (h : ∀ l ∈ ls, Outside l) : Wrapper.decode ls = [] := by
  rw [Wrapper.decode, blocks_of_outside h]
  rfl

/-- The wrapper is the one complete wrapper of the page. -/
theorem blocks_wrapped {items : List Item} (stable : ∀ i ∈ items, i.Stable) (delay : Int) {pre post : List String}
    (before : ∀ l ∈ pre, Outside l) (after : ∀ l ∈ post, Outside l) :
    blocks (pre ++ render items delay ++ post) = [(pre.length, pre.length + (render items delay).length - 1)] :=
  blocks_render (fun i hi => (stable i hi).readable.toStorable) delay (unmarked_of_outside before) (unmarked_of_outside after)

/-- The items that a page holds are those that are read from it. -/
theorem Holds.decode {delay : Int} {items : List Item} {ls : List String} (h : Holds delay items ls) :
    Wrapper.decode ls = items := by
  cases h with
  | bare outside => exact decode_of_outside outside
  | wrapped ne_nil stable keys before after =>
    have hstored : items.map Item.stored = items := by
      conv_rhs => rw [← List.map_id items]
      exact List.map_congr_left fun i hi => Item.stored_of_stable (stable i hi)
    have hcalls : items.filter Item.hasCall = items := List.filter_eq_self.mpr fun i hi => (stable i hi).readable.hasCall
    rw [decode_render (fun i hi => (stable i hi).readable.toStorable) delay (unmarked_of_outside before) (unmarked_of_outside after),
      hcalls, hstored, Item.dedupe_of_stable stable keys]

/-- A reader of the page sees the invariant. -/
theorem Holds.intact {delay : Int} {items : List Item} {ls : List String} (h : Holds delay items ls) : Intact delay ls := by
  have hdecode := h.decode
  cases h with
  | bare outside => exact Or.inl ⟨blocks_of_outside outside, hdecode⟩
  | wrapped ne_nil stable keys before after =>
    refine Or.inr ⟨_, blocks_wrapped stable delay before after, ?_⟩
    rw [linesOf_append _ _ _ (render_ne_nil items delay), hdecode]

/-- The items that a page holds are read as they were written. -/
theorem Holds.stable {delay : Int} {items : List Item} {ls : List String} (h : Holds delay items ls) : ∀ i ∈ items, i.Stable := by
  cases h with
  | bare outside => simp
  | wrapped _ stable _ _ _ => exact stable

/-- The items that a page holds have keys of their own. -/
theorem Holds.keys {delay : Int} {items : List Item} {ls : List String} (h : Holds delay items ls) :
    (items.map Item.key).Nodup := by
  cases h with
  | bare outside => simp
  | wrapped _ _ keys _ _ => exact keys

/-- A page that holds items consists of lines. -/
theorem Holds.isLine {delay : Int} {items : List Item} {ls : List String} (h : Holds delay items ls) : ∀ l ∈ ls, IsLine l := by
  cases h with
  | bare outside => exact fun l hl => (outside l hl).isLine
  | wrapped _ _ _ before after =>
    intro l hl
    rcases List.mem_append.mp hl with hl | hl
    · rcases List.mem_append.mp hl with hl | hl
      · exact (before l hl).isLine
      · exact isLine_of_mem_render hl
    · exact (after l hl).isLine

/-- The invariant is about the text of the page as well as about its lines. -/
theorem Holds.lines_unlines {delay : Int} {items : List Item} {ls : List String} (h : Holds delay items ls) :
    Holds delay items (lines (unlines ls)) := by
  by_cases hempty : ls = []
  · have hitems : items = [] := by
      rw [← h.decode, hempty]
      rfl
    rw [hitems, hempty]
    refine .bare ?_
    intro l hl
    rw [List.mem_singleton.mp (show l ∈ [""] from hl)]
    exact ⟨by decide, by decide⟩
  · rw [Text.lines_unlines hempty h.isLine]
    exact h

/-! ## Positions of the wrapper -/

/-- The lines of a single wrapper are inside it. -/
theorem inside_wrapped {pre : List String} {len i : Nat} (hi : i < len) :
    inside [(pre.length, pre.length + len - 1)] (pre.length + i) = true := by
  simp only [inside, List.any_cons, List.any_nil, Bool.or_false, Range.has, Bool.and_eq_true, decide_eq_true_eq]
  omega

/-- The invariant is kept by a change of lines, position by position, that leaves the wrapper alone. -/
theorem Holds.mapIdx {delay : Int} {items : List Item} {ls : List String} (h : Holds delay items ls) {f : Nat → String → String}
    (houtside : ∀ i l, Outside l → Outside (f i l)) (hinside : ∀ i l, inside (blocks ls) i = true → f i l = l) :
    Holds delay items (ls.mapIdx f) := by
  have hmap : ∀ {g : Nat → String → String} {ls : List String}, (∀ i l, Outside l → Outside (g i l)) → (∀ l ∈ ls, Outside l) →
      ∀ l ∈ ls.mapIdx g, Outside l := by
    intro g ls hg hls l hl
    obtain ⟨i, hi, rfl⟩ := List.mem_mapIdx.mp hl
    exact hg i _ (hls _ (List.getElem_mem hi))
  cases h with
  | bare outside => exact .bare (hmap houtside outside)
  | @wrapped _ pre post ne_nil stable keys before after =>
    rw [blocks_wrapped stable delay before after] at hinside
    rw [List.mapIdx_append, List.mapIdx_append]
    have hsame : (render items delay).mapIdx (fun i => f (i + pre.length)) = render items delay := by
      refine List.ext_getElem (by simp) ?_
      intro i h₁ h₂
      rw [List.getElem_mapIdx, Nat.add_comm]
      exact hinside _ _ (inside_wrapped h₂)
    rw [hsame]
    exact .wrapped ne_nil stable keys (hmap houtside before) (hmap (fun i l hl => houtside _ l hl) after)

/-- What is left of lines that can never become markers is such lines. -/
theorem outside_dropLinesFrom {drop : Nat → Bool} {i : Nat} {ls : List String} (h : ∀ l ∈ ls, Outside l) :
    ∀ l ∈ dropLinesFrom drop i ls, Outside l :=
  fun l hl => h l (mem_of_mem_dropLinesFrom hl)

/-- The invariant is kept when lines outside the wrapper are dropped. -/
theorem Holds.dropLines {delay : Int} {items : List Item} {ls : List String} (h : Holds delay items ls) {drop : Nat → Bool}
    (hinside : ∀ i, inside (blocks ls) i = true → drop i = false) : Holds delay items (dropLines drop ls) := by
  cases h with
  | bare outside => exact .bare (outside_dropLinesFrom outside)
  | @wrapped _ pre post ne_nil stable keys before after =>
    rw [blocks_wrapped stable delay before after] at hinside
    have hsame : dropLinesFrom drop (0 + pre.length) (render items delay) = render items delay := by
      refine dropLinesFrom_eq_self ?_
      intro j hj hj'
      have hin : inside [(pre.length, pre.length + (render items delay).length - 1)] (pre.length + (j - pre.length)) = true :=
        inside_wrapped (by omega)
      rw [show pre.length + (j - pre.length) = j by omega] at hin
      exact hinside j hin
    rw [Text.dropLines, dropLinesFrom_append, dropLinesFrom_append, hsame]
    exact .wrapped ne_nil stable keys (outside_dropLinesFrom before) (outside_dropLinesFrom after)

/-- The lines that are left without the wrapper are outside it. -/
theorem Holds.outside_dropLines {delay : Int} {items : List Item} {ls : List String} (h : Holds delay items ls) {drop : Nat → Bool}
    (hinside : ∀ i, inside (blocks ls) i = true → drop i = true) : ∀ l ∈ Text.dropLines drop ls, Outside l := by
  cases h with
  | bare outside => exact outside_dropLinesFrom outside
  | @wrapped _ pre post ne_nil stable keys before after =>
    rw [blocks_wrapped stable delay before after] at hinside
    have hgone : dropLinesFrom drop (0 + pre.length) (render items delay) = [] := by
      refine dropLinesFrom_eq_nil ?_
      intro j hj hj'
      have hin : inside [(pre.length, pre.length + (render items delay).length - 1)] (pre.length + (j - pre.length)) = true :=
        inside_wrapped (by omega)
      rw [show pre.length + (j - pre.length) = j by omega] at hin
      exact hinside j hin
    intro l hl
    rw [Text.dropLines, dropLinesFrom_append, dropLinesFrom_append, hgone, List.append_nil, List.mem_append] at hl
    rcases hl with hl | hl
    · exact outside_dropLinesFrom before l hl
    · exact outside_dropLinesFrom after l hl

/-! ## Writing -/

/-- Such lines are still such lines without the blank ones at their end. -/
theorem outside_dropEndBlankLines {ls : List String} (h : ∀ l ∈ ls, Outside l) : ∀ l ∈ dropEndBlankLines ls, Outside l :=
  fun l hl => h l (mem_of_mem_dropEndBlankLines hl)

/-- The invariant is kept when lines are added at the end, after the last one that is not blank. -/
theorem Holds.concat {delay : Int} {items : List Item} {ls more : List String} (h : Holds delay items ls)
    (hmore : ∀ l ∈ more, Outside l) : Holds delay items (dropEndBlankLines ls ++ more) := by
  have hjoin : ∀ {a : List String}, (∀ l ∈ a, Outside l) → ∀ l ∈ a ++ more, Outside l := by
    intro a ha l hl
    rcases List.mem_append.mp hl with hl | hl
    · exact ha l hl
    · exact hmore l hl
  cases h with
  | bare outside => exact .bare (hjoin (outside_dropEndBlankLines outside))
  | @wrapped _ pre post ne_nil stable keys before after =>
    -- The last line of the wrapper is a marker, so no blank line is taken off from beyond it.
    have hend : dropEndBlankLines (pre ++ render items delay ++ post) = pre ++ render items delay ++ dropEndBlankLines post := by
      have hlast : pre ++ render items delay = (pre ++ (Marker.start.line :: body items delay)) ++ [Marker.stop.line] := by
        simp [render_eq]
      rw [hlast, dropEndBlankLines_append (by decide)]
    rw [hend, List.append_assoc]
    exact .wrapped ne_nil stable keys before (hjoin (outside_dropEndBlankLines after))

/-- A page that gets a wrapper at its end holds the items of the wrapper. -/
theorem holds_append {items : List Item} (stable : ∀ i ∈ items, i.Stable) (keys : (items.map Item.key).Nodup) {ls : List String}
    (h : ∀ l ∈ ls, Outside l) (delay : Int) : Holds delay items (Wrapper.append ls items delay) := by
  have hkept := outside_dropEndBlankLines h
  by_cases hempty : items = []
  · rw [hempty, append_nil]
    exact .bare hkept
  · have hpre : ∀ l ∈ dropEndBlankLines ls ++ separator (dropEndBlankLines ls), Outside l := by
      intro l hl
      rcases List.mem_append.mp hl with hl | hl
      · exact hkept l hl
      · unfold separator at hl
        split at hl
        · nomatch hl
        · rw [List.mem_singleton.mp hl]
          exact ⟨by decide, by decide⟩
    have hshape : Wrapper.append ls items delay =
        dropEndBlankLines ls ++ separator (dropEndBlankLines ls) ++ render items delay ++ [] := by
      rw [append_eq hempty, List.append_nil, List.append_assoc]
    rw [hshape]
    exact .wrapped hempty stable keys hpre (by simp)

/-- A page on which a wrapper is written anew in its place holds the new items. -/
theorem holds_replaceFrom {items new : List Item} (hitems : ∀ i ∈ items, i.Stable) (ne_nil : new ≠ []) (stable : ∀ i ∈ new, i.Stable)
    (keys : (new.map Item.key).Nodup) {delay : Int} {pre post : List String} (before : ∀ l ∈ pre, Outside l)
    (after : ∀ l ∈ post, Outside l) {drop : Nat → Bool}
    (hdrop : ∀ i, inside (blocks (pre ++ render items delay ++ post)) i = true → drop i = true) :
    Holds delay new (Wrapper.replaceFrom pre.length drop (render new delay) 0 (pre ++ render items delay ++ post)) := by
  rw [blocks_wrapped hitems delay before after] at hdrop
  have hlen : (render items delay).length = (body items delay).length + 2 := by simp [render_eq]
  have hgone : dropLinesFrom drop (0 + pre.length + 1) (body items delay ++ [Marker.stop.line]) = [] := by
    refine dropLinesFrom_eq_nil ?_
    intro j hj hj'
    rw [List.length_append, List.length_singleton] at hj'
    have hin : inside [(pre.length, pre.length + (render items delay).length - 1)] (pre.length + (j - pre.length)) = true :=
      inside_wrapped (by omega)
    rw [show pre.length + (j - pre.length) = j by omega] at hin
    exact hdrop j hin
  have hshape := replaceFrom_eq drop (render new delay) pre Marker.start.line (body items delay ++ [Marker.stop.line] ++ post) 0
  rw [Nat.zero_add] at hshape
  rw [render_eq items delay, List.append_assoc, List.cons_append, hshape, dropLinesFrom_append]
  rw [Nat.zero_add] at hgone
  rw [hgone, List.nil_append]
  exact .wrapped ne_nil stable keys (outside_dropLinesFrom before) (outside_dropLinesFrom after)

/-- The invariant is kept by a removal, with the items that the removal leaves. -/
theorem Holds.replace {delay : Int} {items new : List Item} {ls : List String} (h : Holds delay items ls)
    (stable : ∀ i ∈ new, i.Stable) (keys : (new.map Item.key).Nodup) (drop : Nat → Bool) :
    Holds delay new (Wrapper.replace ls drop new delay) := by
  have hgone : ∀ i, inside (blocks ls) i = true → (inside (blocks ls) i || drop i) = true := by
    intro i hi
    rw [hi, Bool.true_or]
  unfold Wrapper.replace
  simp only
  split
  · exact holds_append stable keys (h.outside_dropLines hgone) delay
  · next first rest hblocks =>
    split
    · exact holds_append stable keys (h.outside_dropLines hgone) delay
    · next hne =>
      cases h with
      | bare outside =>
        rw [blocks_of_outside outside] at hblocks
        nomatch hblocks
      | wrapped _ hitems _ before after =>
        have hfirst := hblocks
        rw [blocks_wrapped hitems delay before after] at hfirst
        rw [← (List.cons.inj hfirst).1]
        exact holds_replaceFrom hitems (by simpa using hne) stable keys before after hgone

end UserScripts.Page
