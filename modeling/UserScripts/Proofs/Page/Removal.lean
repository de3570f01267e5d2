import UserScripts.Proofs.Page.Frame
import UserScripts.Proofs.Page.Loads
import UserScripts.Proofs.Wrapper.Decoded

/-!
# Pages after a removal

What is left of a page when a script has been removed from it, and whether any of it loads the script still. The items that are left
are those that do not, so only lines can load it: lines of the wrappers, and lines outside that name its title, which are left
aside if there is a statement. Main statements: `keeps_apply`, `decode_apply`, `any_loadsScript_apply` and `isInstalled_apply`.
-/

namespace UserScripts

open UserScripts.Text

variable {ls : List String} {e : Entry} {s : Settings} {r : Removal} {delay : Int}

/-- Whether the line at some position of a page goes in a removal. -/
def Removal.drops (r : Removal) (ls : List String) (i : Nat) : Bool :=
  (r.items.isSome && Wrapper.inside (Wrapper.blocks ls) i) || r.lines.contains i

/-- The lines of the wrapper that is written in a removal. -/
def Removal.written (r : Removal) (delay : Int) : List String :=
  match r.items with
  | some (item :: items) => Wrapper.render (item :: items) delay
  | _ => []

/-- The lines of the wrappers of a page after a removal. -/
def Removal.wrapperLines (r : Removal) (ls : List String) (delay : Int) : List String :=
  match r.items with
  | none => dropLines (fun i => !Wrapper.inside (Wrapper.blocks ls) i) ls
  | some _ => r.written delay

namespace Page

/-! ## Parts of a removal -/

/-- The items of a page are split into those that load the script, of which the removal gets rid, and the others. -/
theorem removal_split (h : removal ls e s = .ok r) :
    ∃ own others, splitItems e s (Wrapper.decode ls) = .ok (own, others) ∧ r.lines = plainOf ls e s ∧
      r.items = if own.isEmpty then none else some others := by
  unfold removal at h
  cases hs : splitItems e s (Wrapper.decode ls) with
  | error malformed => rw [hs] at h; cases h
  | ok parts =>
    obtain ⟨own, others⟩ := parts
    rw [hs] at h
    simp only [Failure.ofUrl, Except.mapError, bind, Except.bind] at h
    split at h
    · cases h
    · obtain rfl := Except.ok.inj h
      exact ⟨own, others, rfl, rfl, rfl⟩

/-- No item of a list loads a script if it is known of each of them. -/
theorem anyLoads_eq_false {items : List Item} : anyLoads e s items = .ok false ↔ ∀ item ∈ items, item.loads e s = .ok false := by
  induction items with
  | nil => exact iff_of_true rfl fun _ h => absurd h List.not_mem_nil
  | cons item items ih =>
    rw [anyLoads, List.forall_mem_cons, ← ih]
    cases item.loads e s with
    | error malformed => exact iff_of_false (fun h => by cases h) fun h => by cases h.1
    | ok here =>
      cases here with
      | true => exact iff_of_false (fun h => by cases h) fun h => by cases h.1
      | false => exact ⟨fun h => ⟨rfl, h⟩, fun h => h.2⟩

/-- Where no item loads the script, all items are left. -/
theorem splitItems_of_anyLoads {items : List Item} (h : anyLoads e s items = .ok false) : splitItems e s items = .ok ([], items) := by
  rw [anyLoads_eq_false] at h
  induction items with
  | nil => rfl
  | cons item items ih =>
    rw [List.forall_mem_cons] at h
    rw [splitItems, h.1, ih h.2]
    rfl

/-- No item that is left loads the script. -/
theorem anyLoads_of_splitItems {items own others : List Item} (h : splitItems e s items = .ok (own, others)) :
    anyLoads e s others = .ok false := by
  induction items generalizing own others with
  | nil =>
    obtain ⟨-, rfl⟩ := Prod.mk.inj (Except.ok.inj h)
    rfl
  | cons i items ih =>
    rw [splitItems] at h
    cases hi : i.loads e s with
    | error malformed => rw [hi] at h; cases h
    | ok here =>
      rw [hi] at h
      cases hrest : splitItems e s items with
      | error malformed => rw [hrest] at h; cases h
      | ok parts =>
        obtain ⟨own', others'⟩ := parts
        rw [hrest] at h
        have hothers := ih hrest
        cases here with
        | true =>
          obtain ⟨-, rfl⟩ := Prod.mk.inj (Except.ok.inj h)
          exact hothers
        | false =>
          obtain ⟨-, rfl⟩ := Prod.mk.inj (Except.ok.inj h)
          rw [anyLoads, hi]
          exact hothers

/-- From a page that does not load a script, nothing can be removed. -/
theorem removal_of_isInstalled (h : isInstalled ls e s = .ok false) : removal ls e s = .error (.notInstalled e.displayName e.target) := by
  rw [isInstalled_eq_ite] at h
  split at h
  · cases h
  · next hlines =>
    have hplain : plainLines ls e s (Wrapper.inside (Wrapper.blocks ls)) = [] := by
      rw [plainLines_eq_nil]
      intro i line hline _
      simpa using List.any_eq_false.mp (by simpa using hlines) line (List.mem_of_getElem? hline)
    rw [removal, splitItems_of_anyLoads h, hplain]
    rfl

/-- A removal names no line inside the wrappers. -/
theorem drops_of_not_mem {i : Nat} (h : removal ls e s = .ok r) (hinside : Wrapper.inside (Wrapper.blocks ls) i = true) :
    r.lines.contains i = false := by
  obtain ⟨-, -, -, hlines, -⟩ := removal_split h
  rw [hlines, ← Bool.not_eq_true, List.contains_iff_mem]
  intro hmem
  rw [skip_of_mem_plainLines hmem] at hinside
  cases hinside

/-- Of the lines of a page, those that do not go are kept in their order, around the wrapper that is written. -/
theorem keeps_apply (h : removal ls e s = .ok r) (delay : Int) : Keeps (r.drops ls) (r.written delay) ls (r.apply ls delay) := by
  obtain ⟨own, others, hsplit, -, hitems⟩ := removal_split h
  cases hr : r.items with
  | none =>
    have hdrops : r.drops ls = fun i => r.lines.contains i := by
      funext i
      simp [Removal.drops, hr]
    simp only [Removal.written, Removal.apply, hr, hdrops]
    exact keeps_dropLines _ ls
  | some items =>
    have hdrops : (fun i => Wrapper.inside (Wrapper.blocks ls) i || r.lines.contains i) = r.drops ls := by
      funext i
      simp [Removal.drops, hr]
    simp only [Removal.apply, hr, Wrapper.replace, hdrops]
    cases items with
    | nil =>
      have hkeeps := keeps_end (r.drops ls) [] ls
      rw [List.append_nil] at hkeeps
      simp only [Removal.written, hr, Wrapper.append_nil]
      cases Wrapper.blocks ls <;> exact hkeeps
    | cons item items =>
      simp only [Removal.written, hr]
      cases hblocks : Wrapper.blocks ls with
      | nil =>
        -- Without a complete wrapper nothing is decoded, so no item can go.
        rw [Wrapper.decode, hblocks] at hsplit
        obtain ⟨rfl, -⟩ := Prod.mk.inj (Except.ok.inj hsplit)
        rw [hitems] at hr
        cases hr
      | cons first rest =>
        obtain ⟨hle, hlt⟩ := Wrapper.lt_length_of_blocks (show first ∈ Wrapper.blocks ls by rw [hblocks]; simp)
        refine keeps_replaceFrom (by omega) ?_
        simp only [Removal.drops, hr, hblocks, Wrapper.inside_first (Nat.le_of_lt hle), Option.isSome_some, Bool.true_and,
          Bool.true_or]

/-! ## Items after a removal -/

/-- The lines that are left of lines are those that are not dropped. -/
theorem mem_dropLinesFrom {drop : Nat → Bool} {i : Nat} {l : String} :
    l ∈ dropLinesFrom drop i ls ↔ ∃ j, ls[j]? = some l ∧ drop (i + j) = false := by
  induction ls generalizing i with
  | nil => simp [dropLinesFrom]
  | cons m ls ih =>
    have hrest : (∃ j, (m :: ls)[j]? = some l ∧ drop (i + j) = false) ↔
        (m = l ∧ drop i = false) ∨ ∃ j, ls[j]? = some l ∧ drop (i + 1 + j) = false := by
      constructor
      · rintro ⟨j, hj, hdrop⟩
        cases j with
        | zero => exact Or.inl ⟨Option.some.inj hj, hdrop⟩
        | succ j => exact Or.inr ⟨j, hj, by rwa [Nat.add_right_comm]⟩
      · rintro (⟨rfl, hdrop⟩ | ⟨j, hj, hdrop⟩)
        · exact ⟨0, rfl, hdrop⟩
        · exact ⟨j + 1, hj, by rwa [Nat.add_right_comm] at hdrop⟩
    rw [hrest, ← ih, dropLinesFrom]
    split
    · next hgone => simp [hgone]
    · next hkept => simp [hkept, eq_comm]

/-- The lines that are left of a page are those that are not dropped. -/
theorem mem_dropLines {drop : Nat → Bool} {l : String} : l ∈ dropLines drop ls ↔ ∃ i, ls[i]? = some l ∧ drop i = false := by
  rw [dropLines, mem_dropLinesFrom]
  simp only [Nat.zero_add]

/-- If every start marker stands in a wrapper, none is left after a removal that takes an item, as all wrappers are dropped. -/
theorem no_start_of_drops (hitem : r.items.isSome = true) (hclosed : Wrapper.strayFrom .start .stop 0 none ls = []) :
    ∀ l ∈ dropLines (r.drops ls) ls, Wrapper.Marker.start.marks l = false := by
  intro l hl
  obtain ⟨i, hi, hkept⟩ := mem_dropLines.mp hl
  by_contra hmarks
  have hinside := Wrapper.inside_of_marks hclosed hi (by simpa using hmarks)
  rw [Nat.zero_add] at hinside
  simp [Removal.drops, hitem, show Wrapper.inside (Wrapper.blocks ls) i = true from hinside] at hkept

/-- The items of a page after a removal are those that the removal leaves. Where an item goes, no start marker may be left that an
end marker could close. -/
theorem decode_apply (h : removal ls e s = .ok r) (hlines : ∀ l ∈ ls, IsLine l)
    (hclosed : r.items.isSome = true → Wrapper.strayFrom .start .stop 0 none ls = []) (delay : Int) :
    ∃ own, splitItems e s (Wrapper.decode ls) = .ok (own, Wrapper.decode (r.apply ls delay)) := by
  obtain ⟨own, others, hsplit, -, hitems⟩ := removal_split h
  obtain ⟨hown, hothers⟩ := splitItems_ok hsplit
  refine ⟨own, ?_⟩
  rw [hsplit]
  congr 2
  cases hr : r.items with
  | none =>
    have hempty : own = [] := by
      by_contra hne
      rw [hitems, if_neg (by simpa using hne)] at hr
      cases hr
    have hsame : Wrapper.decode (r.apply ls delay) = Wrapper.decode ls := by
      simp only [Removal.apply, hr]
      exact Wrapper.decode_dropLines fun i hi => drops_of_not_mem h hi
    rw [hsame, hothers, List.filter_eq_self]
    intro i hi
    rw [hempty] at hown
    simpa using List.filter_eq_nil_iff.mp hown.symm i hi
  | some items =>
    have hsome : r.items.isSome = true := by rw [hr]; rfl
    have hleft : items = others := by
      rw [hr] at hitems
      split at hitems
      · cases hitems
      · exact Option.some.inj hitems
    have hstart := no_start_of_drops hsome (hclosed hsome)
    obtain ⟨before, after, tail, hdrop, -, happly⟩ := keeps_apply h delay
    rw [hdrop] at hstart
    rw [happly, ← hleft]
    cases items with
    | nil =>
      refine (Wrapper.decode_of_no_start fun l hl => hstart l ?_).symm
      simp only [Removal.written, hr, List.append_nil] at hl
      exact List.mem_append_left _ hl
    | cons item items =>
      simp only [Removal.written, hr]
      refine (Wrapper.decode_rewritten hlines ?_ delay (fun l hl => hstart l ?_) fun l hl => hstart l ?_).symm
      · rw [hleft, hothers]
        exact List.filter_sublist
      · exact List.mem_append_left _ (List.mem_append_left _ hl)
      · exact List.mem_append_left _ (List.mem_append_right _ hl)

/-! ## Lines after a removal -/

/-- A blank line loads nothing. -/
theorem loadsScript_of_blank {l : String} (h : isBlankLine l = true) (e : Entry) (s : Settings) : loadsScript e s l = false := by
  have hblank : ∀ c ∈ l.toList, isBlank c = true := by simpa [isBlankLine] using h
  have hstatement : Entry.ofLine? l e.target = none := by
    rw [Entry.ofLine?, Statement.ofLine?, Statement.dropSlashes, dropBlank_eq_nil.mpr hblank]
    rfl
  have hmention : mentionsLoad l = false := by
    rw [mentionsLoad, firstPlace_eq_none, Option.isSome_none]
    intro gap ahead hl
    cases ahead with
    | nil => rfl
    | cons c more =>
      have hc : c ≠ 'm' := by
        rintro rfl
        exact absurd (hblank 'm' (by rw [hl]; simp)) (by decide)
      exact if_neg hc.symm
  have htitle : byTitle e l = false := by
    unfold byTitle
    split
    · rw [loadsTitle, hmention, Bool.false_and, Bool.false_and]
    · rfl
  rw [loadsScript, htitle, byStatement, hstatement]
  rfl

/-- A line that counts by its title is no statement. -/
theorem byStatement_of_byTitle {l : String} (h : byTitle e l = true) : byStatement e s l = false := by
  unfold byTitle at h
  split at h
  · rw [loadsTitle, Bool.and_eq_true, Option.isNone_iff_eq_none] at h
    rw [byStatement, h.2]
    rfl
  · cases h

/-- Of the lines outside the wrappers one is left that loads the script exactly if there were a statement and a line with its
title. -/
theorem exists_loadsScript_outside (h : removal ls e s = .ok r) :
    (∃ i line, ls[i]? = some line ∧ Wrapper.inside (Wrapper.blocks ls) i = false ∧ r.drops ls i = false ∧ loadsScript e s line = true) ↔
      statementLines ls e s (Wrapper.inside (Wrapper.blocks ls)) ≠ [] ∧ titleLines ls e (Wrapper.inside (Wrapper.blocks ls)) ≠ [] := by
  obtain ⟨-, -, -, hlines, -⟩ := removal_split h
  have hdrops : ∀ i, Wrapper.inside (Wrapper.blocks ls) i = false → (r.drops ls i = false ↔ i ∉ plainOf ls e s) := by
    intro i houtside
    rw [Removal.drops, houtside, Bool.and_false, Bool.false_or, hlines, ← Bool.not_eq_true, List.contains_iff_mem]
  constructor
  · rintro ⟨i, line, hline, houtside, hkept, hloads⟩
    rw [hdrops i houtside, plainOf, plainLines] at hkept
    have hby : byStatement e s line = true ∨ byTitle e line = true := by rwa [loadsScript, Bool.or_eq_true] at hloads
    have hstatement : byStatement e s line = true → i ∈ statementLines ls e s (Wrapper.inside (Wrapper.blocks ls)) := by
      rw [statementLines_eq, mem_positionsOf]
      exact fun hby => ⟨houtside, line, hline, hby⟩
    have htitle : byTitle e line = true → i ∈ titleLines ls e (Wrapper.inside (Wrapper.blocks ls)) := by
      rw [titleLines_eq, mem_positionsOf]
      exact fun hby => ⟨houtside, line, hline, hby⟩
    cases hfound : statementLines ls e s (Wrapper.inside (Wrapper.blocks ls)) with
    | nil =>
      rw [hfound] at hkept hstatement
      exact absurd (hby.elim (fun hby => absurd (hstatement hby) List.not_mem_nil) htitle) hkept
    | cons j found =>
      rw [hfound] at hkept hstatement
      exact ⟨List.cons_ne_nil j found, List.ne_nil_of_mem (htitle (hby.resolve_left fun hby => hkept (hstatement hby)))⟩
  · rintro ⟨hstatements, htitles⟩
    obtain ⟨i, hi⟩ := List.exists_mem_of_ne_nil _ htitles
    obtain ⟨houtside, line, hline, hby⟩ := by
      rw [titleLines_eq, mem_positionsOf] at hi
      exact hi
    refine ⟨i, line, hline, houtside, (hdrops i houtside).mpr ?_, by rw [loadsScript, hby, Bool.or_true]⟩
    rw [plainOf, plainLines]
    split
    · next hnone => exact absurd hnone hstatements
    · rw [statementLines_eq, mem_positionsOf]
      rintro ⟨-, line', hline', hby'⟩
      rw [← Option.some.inj (hline.symm.trans hline'), byStatement_of_byTitle hby] at hby'
      cases hby'

/-- Of the lines inside the wrappers those are left that are lines of the wrappers after the removal. -/
theorem mem_wrapperLines (h : removal ls e s = .ok r) {line : String} :
    line ∈ r.wrapperLines ls delay ↔
      line ∈ r.written delay ∨ ∃ i, ls[i]? = some line ∧ Wrapper.inside (Wrapper.blocks ls) i = true ∧ r.drops ls i = false := by
  cases hr : r.items with
  | none =>
    simp only [Removal.wrapperLines, Removal.written, hr, mem_dropLines, List.not_mem_nil, false_or, Bool.not_eq_false']
    refine exists_congr fun i => and_congr_right fun _ => (and_iff_left_of_imp fun hinside => ?_).symm
    rw [Removal.drops, hr, Option.isSome_none, Bool.false_and, Bool.false_or]
    exact drops_of_not_mem h hinside
  | some items =>
    have hgone : ¬∃ i, ls[i]? = some line ∧ Wrapper.inside (Wrapper.blocks ls) i = true ∧ r.drops ls i = false := by
      rintro ⟨i, -, hinside, hkept⟩
      simp [Removal.drops, hr, hinside] at hkept
    simp only [Removal.wrapperLines, hr, hgone, or_false]

/-- Some line of a page loads a script after its removal exactly if a line of the wrappers does, or if there were a statement and a
line with its title outside the wrappers. -/
theorem any_loadsScript_apply (h : removal ls e s = .ok r) (delay : Int) :
    (r.apply ls delay).any (loadsScript e s) = true ↔
      (r.wrapperLines ls delay).any (loadsScript e s) = true ∨
        (statementLines ls e s (Wrapper.inside (Wrapper.blocks ls)) ≠ [] ∧
          titleLines ls e (Wrapper.inside (Wrapper.blocks ls)) ≠ []) := by
  obtain ⟨before, after, tail, hdrop, hblank, happly⟩ := keeps_apply h delay
  have hkept : (∃ line ∈ before ++ after, loadsScript e s line = true) ↔
      ∃ i line, ls[i]? = some line ∧ r.drops ls i = false ∧ loadsScript e s line = true := by
    constructor
    · rintro ⟨line, hline, hloads⟩
      obtain ⟨i, hi, hkept⟩ := mem_dropLines.mp (show line ∈ dropLines (r.drops ls) ls by rw [hdrop]; exact List.mem_append_left _ hline)
      exact ⟨i, line, hi, hkept, hloads⟩
    · rintro ⟨i, line, hi, hkept, hloads⟩
      have hline : line ∈ before ++ after ++ tail := hdrop ▸ mem_dropLines.mpr ⟨i, hi, hkept⟩
      refine ⟨line, (List.mem_append.mp hline).resolve_right fun htail => ?_, hloads⟩
      rw [loadsScript_of_blank (hblank line htail)] at hloads
      cases hloads
  simp only [List.any_eq_true, mem_wrapperLines h]
  rw [← exists_loadsScript_outside h, happly]
  constructor
  · rintro ⟨line, hline, hloads⟩
    have hcases : line ∈ r.written delay ∨ line ∈ before ++ after := by
      simp only [List.mem_append] at hline ⊢
      tauto
    rcases hcases with hwritten | hline
    · exact Or.inl ⟨line, Or.inl hwritten, hloads⟩
    · obtain ⟨i, line, hi, hkept, hloads⟩ := hkept.mp ⟨line, hline, hloads⟩
      cases hinside : Wrapper.inside (Wrapper.blocks ls) i with
      | true => exact Or.inl ⟨line, Or.inr ⟨i, hi, hinside, hkept⟩, hloads⟩
      | false => exact Or.inr ⟨i, line, hi, hinside, hkept, hloads⟩
  · rintro (⟨line, hwritten | ⟨i, hi, -, hkept'⟩, hloads⟩ | ⟨i, line, hi, -, hkept', hloads⟩)
    · exact ⟨line, List.mem_append_left _ (List.mem_append_right _ hwritten), hloads⟩
    all_goals
      obtain ⟨line, hline, hloads⟩ := hkept.mpr ⟨i, line, hi, hkept', hloads⟩
      refine ⟨line, ?_, hloads⟩
      simp only [List.mem_append] at hline ⊢
      tauto

/-! ## Whether the script is gone -/

/-- Nothing of a page after a removal loads the script: no line of its wrappers; no line with the title of the script, which is left
aside if there is a statement; and no item that is read only now. -/
structure Gone (r : Removal) (ls : List String) (e : Entry) (s : Settings) : Prop where
  wrappers : ∀ line ∈ r.wrapperLines ls s.fallbackDelay, loadsScript e s line = false
  titles : statementLines ls e s (Wrapper.inside (Wrapper.blocks ls)) = [] ∨ titleLines ls e (Wrapper.inside (Wrapper.blocks ls)) = []
  items : ∀ item ∈ Wrapper.decode (r.apply ls s.fallbackDelay), item ∉ r.items.getD (Wrapper.decode ls) → item.loads e s = .ok false

/-- The items that a removal leaves do not load the script. -/
theorem loads_of_left (h : removal ls e s = .ok r) : ∀ item ∈ r.items.getD (Wrapper.decode ls), item.loads e s = .ok false := by
  obtain ⟨own, others, hsplit, -, hitems⟩ := removal_split h
  have hothers := anyLoads_eq_false.mp (anyLoads_of_splitItems hsplit)
  rw [hitems]
  split
  · next hnone =>
    have hown := (splitItems_ok hsplit).1
    rw [List.isEmpty_iff.mp hnone, eq_comm, List.filter_eq_nil_iff] at hown
    have hleft : others = Wrapper.decode ls := by
      rw [(splitItems_ok hsplit).2, List.filter_eq_self]
      exact fun item hitem => by simpa using hown item hitem
    rwa [← hleft]
  · exact hothers

/-- Where an item goes and every start marker is closed, no item is read that was not there. -/
theorem mem_left_of_mem_decode (h : removal ls e s = .ok r) (hlines : ∀ l ∈ ls, IsLine l)
    (hclosed : r.items.isSome = true → Wrapper.strayFrom .start .stop 0 none ls = []) (delay : Int) :
    ∀ item ∈ Wrapper.decode (r.apply ls delay), item ∈ r.items.getD (Wrapper.decode ls) := by
  obtain ⟨own, others, hsplit, -, hitems⟩ := removal_split h
  obtain ⟨own', hsplit'⟩ := decode_apply h hlines hclosed delay
  obtain ⟨-, hleft⟩ := Prod.mk.inj (Except.ok.inj (hsplit'.symm.trans hsplit))
  intro item hitem
  rw [hleft] at hitem
  rw [hitems]
  split
  · rw [(splitItems_ok hsplit).2] at hitem
    exact List.mem_of_mem_filter hitem
  · exact hitem

/-- The page after a removal is read back as it was written; if nothing is left, it is read as one empty line. -/
theorem lines_apply (h : removal ls e s = .ok r) (hlines : ∀ l ∈ ls, IsLine l) (delay : Int) :
    lines (unlines (r.apply ls delay)) = r.apply ls delay ∨ (r.apply ls delay = [] ∧ lines (unlines (r.apply ls delay)) = [""]) := by
  by_cases hnil : r.apply ls delay = []
  · exact Or.inr ⟨hnil, by rw [hnil]; rfl⟩
  · refine Or.inl (lines_unlines hnil fun l hl => ?_)
    obtain ⟨before, after, tail, hdrop, -, happly⟩ := keeps_apply h delay
    have hkept : ∀ l ∈ before ++ after ++ tail, IsLine l := fun l hl => hlines l (mem_of_mem_dropLinesFrom (hdrop ▸ hl))
    have hwritten : ∀ l ∈ r.written delay, IsLine l := by
      unfold Removal.written
      split
      · exact fun l hl => Wrapper.isLine_of_mem_render hl
      · exact fun l hl => absurd hl List.not_mem_nil
    rw [happly, List.mem_append, List.mem_append] at hl
    rcases hl with (hl | hl) | hl
    · exact hkept l (by simp [hl])
    · exact hwritten l hl
    · exact hkept l (by simp [hl])

/-- The page does not load the script after its removal exactly if it is gone. -/
theorem isInstalled_apply (h : removal ls e s = .ok r) (hlines : ∀ l ∈ ls, IsLine l) :
    isInstalled (lines (unlines (r.apply ls s.fallbackDelay))) e s = .ok false ↔ Gone r ls e s := by
  have hsame : isInstalled (lines (unlines (r.apply ls s.fallbackDelay))) e s = isInstalled (r.apply ls s.fallbackDelay) e s := by
    rcases lines_apply h hlines s.fallbackDelay with hsame | ⟨hnil, hone⟩
    · rw [hsame]
    · rw [hone, hnil, isInstalled_eq_ite, isInstalled_eq_ite, List.any_cons, loadsScript_of_blank (by rfl), Bool.false_or]
      rfl
  have hany := any_loadsScript_apply h s.fallbackDelay
  have hitems : anyLoads e s (Wrapper.decode (r.apply ls s.fallbackDelay)) = .ok false ↔
      ∀ item ∈ Wrapper.decode (r.apply ls s.fallbackDelay), item ∉ r.items.getD (Wrapper.decode ls) → item.loads e s = .ok false := by
    rw [anyLoads_eq_false]
    exact ⟨fun h item hitem _ => h item hitem, fun hnew item hitem =>
      if hleft : item ∈ r.items.getD (Wrapper.decode ls) then loads_of_left h item hleft else hnew item hitem hleft⟩
  rw [hsame, isInstalled_eq_ite]
  split
  · next hloads =>
    refine iff_of_false (fun h => by cases h) fun gone => ?_
    rcases hany.mp hloads with hwrapper | ⟨hstatements, htitles⟩
    · obtain ⟨line, hline, hloads⟩ := List.any_eq_true.mp hwrapper
      exact Bool.false_ne_true ((gone.wrappers line hline).symm.trans hloads)
    · exact gone.titles.elim hstatements htitles
  · next hnone =>
    rw [hany, not_or, not_and_or, not_not, not_not, List.any_eq_true] at hnone
    rw [hitems]
    refine ⟨fun hitems => ⟨fun line hline => ?_, hnone.2, hitems⟩, fun gone => gone.items⟩
    by_contra hloads
    exact hnone.1 ⟨line, hline, by simpa using hloads⟩

end Page

end UserScripts
