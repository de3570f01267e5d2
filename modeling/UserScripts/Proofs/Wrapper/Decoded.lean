import UserScripts.Proofs.Wrapper.Blocks
import UserScripts.Proofs.Wrapper.RoundTrip

/-!
# Decoded items

Items that have been read from a page can be written into a wrapper and are read back from it just as they were, each once and in
the same order, also if some of them are left out. Main statements: `callOf?_idem`, `Item.dedupe_eq_self` and
`decode_rewritten`.
-/

namespace UserScripts

open UserScripts.Text

/-! ## Items, each once -/

namespace Item

/-- Items that are told apart by their signatures. -/
structure Distinct (items : List Item) : Prop where
  signed : ∀ i ∈ items, i.signature ≠ ""
  nodup : (items.map signature).Nodup

/-- Items that are told apart are so without some of them. -/
theorem Distinct.sublist {items others : List Item} (h : Distinct items) (hsub : others.Sublist items) : Distinct others :=
  ⟨fun i hi => h.signed i (hsub.subset hi), h.nodup.sublist (hsub.map signature)⟩

/-- What is kept of items is in their order. -/
theorem dedupeFrom_sublist (seen : List String) (items : List Item) : (dedupeFrom seen items).Sublist items := by
  induction items generalizing seen with
  | nil => exact List.Sublist.refl []
  | cons i items ih =>
    rw [dedupeFrom]
    split
    · exact (ih seen).cons i
    · exact (ih _).cons_cons i

/-- An item that is kept has a signature that has not been seen. -/
theorem not_mem_of_mem_dedupeFrom {seen : List String} {items : List Item} {i : Item} (h : i ∈ dedupeFrom seen items) :
    i.signature ≠ "" ∧ i.signature ∉ seen := by
  induction items generalizing seen with
  | nil => cases h
  | cons j items ih =>
    rw [dedupeFrom] at h
    split at h
    · exact ih h
    · next hnew =>
      have hnew : j.signature ≠ "" ∧ j.signature ∉ seen := by simpa [not_or] using hnew
      rcases List.mem_cons.mp h with rfl | h
      · exact hnew
      · exact ⟨(ih h).1, fun hi => (ih h).2 (List.mem_cons_of_mem _ hi)⟩

/-- What is kept of items is told apart. -/
theorem distinct_dedupe (items : List Item) : Distinct (dedupe items) := by
  refine ⟨fun i hi => (not_mem_of_mem_dedupeFrom hi).1, ?_⟩
  have hfrom : ∀ seen, ((dedupeFrom seen items).map signature).Nodup := by
    induction items with
    | nil => exact fun _ => List.nodup_nil
    | cons i items ih =>
      intro seen
      rw [dedupeFrom]
      split
      · exact ih seen
      · rw [List.map_cons, List.nodup_cons]
        refine ⟨fun hi => ?_, ih _⟩
        obtain ⟨j, hj, hsame⟩ := List.mem_map.mp hi
        exact (not_mem_of_mem_dedupeFrom hj).2 (by rw [hsame]; exact List.mem_cons_self)
  exact hfrom []

/-- Items that are told apart stay as they are. -/
theorem dedupe_eq_self {items : List Item} (h : Distinct items) : dedupe items = items := by
  have hfrom : ∀ seen : List String, (∀ i ∈ items, i.signature ∉ seen) → dedupeFrom seen items = items := by
    obtain ⟨hsigned, hnodup⟩ := h
    induction items with
    | nil => exact fun _ _ => rfl
    | cons i items ih =>
      intro seen hseen
      rw [List.map_cons, List.nodup_cons] at hnodup
      rw [dedupeFrom, if_neg (by simp [hsigned i List.mem_cons_self, hseen i List.mem_cons_self]),
        ih (fun j hj => hsigned j (List.mem_cons_of_mem _ hj)) hnodup.2]
      intro j hj hmem
      rcases List.mem_cons.mp hmem with hsame | hmem
      · exact hnodup.1 (hsame ▸ List.mem_map_of_mem hj)
      · exact hseen j (List.mem_cons_of_mem _ hj) hmem
  exact hfrom [] (by simp)

end Item

namespace Wrapper

/-! ## Calls that have been read -/

/-- Tokens are found in whatever text goes on after them. -/
theorem tokens?_append {tokens : List String} {u s : List Char} (hne : ∀ token ∈ tokens, token.toList ≠ [])
    (h : tokens? tokens (u ++ s) = some s) (more : List Char) : tokens? tokens (u ++ more) = some more := by
  induction tokens generalizing u with
  | nil =>
    have hu : u = [] := by simpa using Option.some.inj h
    rw [hu]
    rfl
  | cons token tokens ih =>
    rw [tokens?, Option.bind_eq_some_iff] at h
    obtain ⟨r, hr, hrest⟩ := h
    rw [after?_eq_some] at hr
    obtain ⟨v, rfl⟩ := tokens?_suffix hrest
    obtain ⟨b, hb, hblank⟩ := exists_blank_append_dropBlank (u ++ s)
    obtain rfl : u = b ++ token.toList ++ v := by
      rw [hr, ← List.append_assoc, ← List.append_assoc] at hb
      exact List.append_cancel_right hb
    obtain ⟨c, word, hword⟩ := List.exists_cons_of_ne_nil (hne token List.mem_cons_self)
    have hstart : dropBlank (b ++ token.toList ++ v ++ more) = token.toList ++ (v ++ more) := by
      rw [List.append_assoc, List.append_assoc, dropBlank_append_of_blank hblank, hword, List.cons_append]
      exact dropBlank_cons_of_not_blank (isBlank_head_dropBlank (hr.trans (by rw [hword, List.cons_append]))) _
    rw [tokens?, hstart, after?_append]
    exact ih (fun x hx => hne x (List.mem_cons_of_mem _ hx)) hrest

/-- A call ends here with a semicolon, and with it the line. -/
def CallEnds (s : List Char) : Prop :=
  ∃ rest, dropBlank s = ';' :: rest ∧ ∀ c ∈ rest, isBlank c = true

/-- A call ends with the semicolon that ends the line. -/
theorem callEnd?_of_callEnds {s : List Char} (h : CallEnds s) : callEnd? (')' :: s) = some (')' :: takeBlank s ++ [';']) := by
  obtain ⟨rest, hs, hblank⟩ := h
  rw [callEnd?, if_pos rfl, hs]
  simp [dropBlank_eq_nil.mpr hblank]

/-- A parenthesis at which no call ends is passed by. -/
theorem callEnd?_of_not_callEnds {s : List Char} (h : ¬CallEnds s) : callEnd? (')' :: s) = (callEnd? s).map (')' :: ·) := by
  rw [callEnd?, if_pos rfl]
  split
  · next rest hs =>
    rw [if_neg]
    exact fun hempty => h ⟨rest, hs, dropBlank_eq_nil.mp (List.isEmpty_iff.mp hempty)⟩
  · rfl

/-- The end of a call is read from itself. -/
theorem callEnd?_idem {s tail : List Char} (h : callEnd? s = some tail) : callEnd? tail = some tail := by
  induction s generalizing tail with
  | nil => cases h
  | cons c s ih =>
    by_cases hc : c = ')'
    · subst hc
      by_cases hends : CallEnds s
      · rw [callEnd?_of_callEnds hends, Option.some.injEq] at h
        have hdrop : dropBlank (takeBlank s ++ [';']) = [';'] := by
          rw [dropBlank_append_of_blank fun c hc => isBlank_of_mem_takeBlank hc]
          rfl
        have htake : takeBlank (takeBlank s ++ [';']) = takeBlank s := by
          have hsplit := takeBlank_append_dropBlank (takeBlank s ++ [';'])
          rw [hdrop] at hsplit
          exact List.append_cancel_right hsplit
        rw [← h, List.cons_append, callEnd?_of_callEnds ⟨[], hdrop, by simp⟩, htake]
        rfl
      · rw [callEnd?_of_not_callEnds hends] at h
        obtain ⟨u, hu, rfl⟩ := Option.map_eq_some_iff.mp h
        obtain ⟨b, hs, hblank, -⟩ := callEnd?_eq_some hu
        -- Only blanks follow what was read, so the call does not end here in it either.
        have hnot : ¬CallEnds u := by
          rintro ⟨rest, hu', hrest⟩
          obtain ⟨gap, hgap, hgapBlank⟩ := exists_blank_append_dropBlank u
          refine hends ⟨rest ++ b, ?_, fun c hc => (List.mem_append.mp hc).elim (hrest c) (hblank c)⟩
          rw [hs, hgap, hu', List.append_assoc, dropBlank_append_of_blank hgapBlank]
          rfl
        rw [callEnd?_of_not_callEnds hnot, ih hu]
        rfl
    · rw [callEnd?, if_neg hc] at h
      split at h
      · cases h
      · next hline =>
        obtain ⟨u, hu, rfl⟩ := Option.map_eq_some_iff.mp h
        rw [callEnd?, if_neg hc, if_neg hline, ih hu]
        rfl

/-- A call that has been read from a line is read from itself. -/
theorem callOf?_idem {line call : String} (h : callOf? line = some call) : callOf? call = some call := by
  obtain ⟨found, hf, hcall⟩ := Option.map_eq_some_iff.mp h
  obtain ⟨p, t, -, ht⟩ := exists_of_firstPlace_eq_some hf
  obtain ⟨word, hw, ht⟩ := Option.bind_eq_some_iff.mp ht
  obtain ⟨rest, hr, ht⟩ := Option.bind_eq_some_iff.mp ht
  obtain ⟨tail, he, hfound⟩ := Option.bind_eq_some_iff.mp ht
  clear ht
  obtain ⟨u, rfl⟩ := tokens?_suffix hr
  have htake : t.take (t.length - rest.length) = "mw".toList ++ u := by
    rw [after?_eq_some.mp hw, ← List.append_assoc, List.length_append, Nat.add_sub_cancel, List.take_left]
  have hlist : call.toList = "mw".toList ++ u ++ tail := by
    rw [← hcall, String.toList_ofList, ← htake]
    exact (Option.some.inj hfound).symm
  have hword : after? "mw".toList call.toList = some (u ++ tail) := by
    rw [hlist, List.append_assoc, after?_append]
  have htokens : tokens? callTokens (u ++ tail) = some tail := tokens?_append (by decide) hr tail
  rw [callOf?, firstPlace_of_some (a := call.toList)]
  · rw [Option.map_some, String.ofList_toList]
  · rw [hword]
    simp only [Option.bind_eq_bind, Option.bind_some, htokens, callEnd?_idem he]
    rw [hlist, List.length_append, Nat.add_sub_cancel, List.take_left]
    rfl

/-! ## Items that have been read -/

/-- The call of an item that is read is the one it had, or one on its lines. -/
theorem call_of_readFields {item read : Item} {ls : List String} (h : readFields item ls = .ok read) :
    read.call = item.call ∨ ∃ l ∈ ls, read.call = extractCall l := by
  induction ls generalizing item with
  | nil => exact Or.inl (congrArg Item.call (Except.ok.inj h).symm)
  | cons l ls ih =>
    rw [readFields] at h
    cases hkey : readField "key" item.key l with
    | error defect => rw [hkey] at h; cases h
    | ok key =>
      cases hname : readField "name" item.name l with
      | error defect => rw [hkey, hname] at h; cases h
      | ok name =>
        rw [hkey, hname] at h
        rcases ih h with hcall | ⟨m, hm, hcall⟩
        · rw [hcall]
          simp only
          split
          · exact Or.inr ⟨l, List.mem_cons_self, rfl⟩
          · exact Or.inl rfl
        · exact Or.inr ⟨m, List.mem_cons_of_mem _ hm, hcall⟩

/-- The item of a range has its call from one of the lines. -/
theorem call_of_itemOf {ls : List String} {r : Range} {i : Item} (h : (itemOf ls r).toOption = some i) :
    ∃ l ∈ linesOf ls r, callOf? l = some i.call := by
  rw [toOption_itemOf, readRun] at h
  split at h
  · next item hitem =>
    split at h
    · cases h
    · next hcall =>
      obtain rfl := Option.some.inj h
      obtain hempty | ⟨l, hl, heq⟩ := call_of_readFields hitem
      · exact absurd hempty hcall
      · refine ⟨l, hl, ?_⟩
        cases hc : callOf? l with
        | none => exact absurd (heq.trans (by rw [extractCall, hc]; rfl)) hcall
        | some call => rw [heq, extractCall, hc, Option.getD_some]
  · cases h

/-- Every item of a page has its call from one of the lines. -/
theorem call_of_mem_decode {ls : List String} {i : Item} (h : i ∈ decode ls) : ∃ l ∈ ls, callOf? l = some i.call := by
  obtain ⟨block, -, hblock⟩ := List.mem_flatMap.mp ((Item.dedupeFrom_sublist [] _).subset h)
  have hread : ∃ r, (itemOf ls r).toOption = some i := by
    rw [itemsOf] at hblock
    split at hblock
    · obtain ⟨r, -, hr⟩ := List.mem_filterMap.mp hblock
      exact ⟨r, hr⟩
    · obtain ⟨r, -, hr⟩ := List.mem_filterMap.mp hblock
      exact ⟨r, hr⟩
  obtain ⟨r, hr⟩ := hread
  obtain ⟨l, hl, hcall⟩ := call_of_itemOf hr
  exact ⟨l, List.mem_of_mem_drop (List.mem_of_mem_take hl), hcall⟩

/-- An item that has been read is written as it is and read back from there. -/
theorem read_of_mem_decode {ls : List String} (hlines : ∀ l ∈ ls, IsLine l) {i : Item} (h : i ∈ decode ls) :
    i.Readable ∧ trim i.call = i.call := by
  obtain ⟨l, hl, hcall⟩ := call_of_mem_decode h
  obtain ⟨p, b, rest, hsplit, -, hstart, hend⟩ := callOf?_eq_some hcall
  have htrim : trim i.call = i.call := by
    refine trim_eq_self (fun c hc => ?_) fun c hc => ?_
    · rw [hstart] at hc
      rw [← Option.some.inj hc]
      decide
    · rw [hend] at hc
      rw [← Option.some.inj hc]
      decide
  have hline : IsLine i.call := fun hmem => hlines l hl (by
    rw [hsplit]
    exact List.mem_append_left _ (List.mem_append_right _ hmem))
  have hextract : extractCall i.call = i.call := by rw [extractCall, callOf?_idem hcall, Option.getD_some]
  refine ⟨⟨⟨?_, ?_⟩, ?_⟩, htrim⟩
  · rwa [htrim]
  · rwa [htrim]
  · rw [htrim]
    rintro hempty
    rw [hempty] at hstart
    cases hstart

/-! ## Wrappers that have been written anew -/

/-- Lines between two markers are passed by as long as the run is open. -/
theorem runsFrom_append_of_unmarked {opens closes : Marker} {ls : List String}
    (h : ∀ l ∈ ls, opens.marks l = false ∧ closes.marks l = false) (run more : List String) :
    runsFrom opens closes (some run) (ls ++ more) = runsFrom opens closes (some (run ++ ls)) more := by
  induction ls generalizing run with
  | nil => simp
  | cons l ls ih =>
    obtain ⟨hopens, hcloses⟩ := h l List.mem_cons_self
    rw [List.cons_append, runsFrom, if_neg (by simp [hopens]), if_neg (by simp [hcloses]), Option.map_some,
      ih fun m hm => h m (List.mem_cons_of_mem _ hm)]
    simp

/-- The wrapper is the only one of a page on which no other start marker stands. -/
theorem blockLines_render {items : List Item} (h : ∀ i ∈ items, i.Storable) (delay : Int) {pre post : List String}
    (hpre : ∀ l ∈ pre, Marker.start.marks l = false) (hpost : ∀ l ∈ post, Marker.start.marks l = false) :
    blockLines (pre ++ render items delay ++ post) = [render items delay] := by
  have hrest := @runsFrom_append_of_no_start .start .stop post hpost []
  rw [List.append_nil] at hrest
  rw [blockLines, List.append_assoc, runsFrom_append_of_no_start hpre, render_eq, List.cons_append, List.append_assoc, runsFrom,
    if_pos (by decide), runsFrom_append_of_unmarked fun l hl => not_block_of_mem_body h hl, show [Marker.stop.line] ++ post = Marker.stop.line :: post from rfl,
    runsFrom, if_neg (by decide), Option.isSome_some, Bool.true_and, if_pos (by decide), hrest]
  rfl

/-- Some of the items of a page are read back from a wrapper among lines without a start marker. -/
theorem decode_rewritten {ls : List String} (hlines : ∀ l ∈ ls, IsLine l) {items : List Item} (hitems : items.Sublist (decode ls))
    (delay : Int) {pre post : List String} (hpre : ∀ l ∈ pre, Marker.start.marks l = false)
    (hpost : ∀ l ∈ post, Marker.start.marks l = false) : decode (pre ++ render items delay ++ post) = items := by
  have hread : ∀ i ∈ items, i.Readable ∧ trim i.call = i.call := fun i hi => read_of_mem_decode hlines (hitems.subset hi)
  have hstorable : ∀ i ∈ items, i.Storable := fun i hi => (hread i hi).1.toStorable
  have hcalls : items.filter Item.hasCall = items := List.filter_eq_self.mpr fun i hi => (hread i hi).1.hasCall
  have hstored : items.map Item.stored = items := by
    conv_rhs => rw [← List.map_id items]
    exact List.map_congr_left fun i hi => by rw [Item.stored, (hread i hi).2, id]
  have hbare : decode ([] ++ render items delay ++ []) = _ := decode_render hstorable delay (by simp) (by simp)
  have hblocks : blockLines ([] ++ render items delay ++ []) = _ := blockLines_render hstorable delay (by simp) (by simp)
  rw [decode_eq, hblocks, hcalls, hstored, Item.dedupe_eq_self ((Item.distinct_dedupe _).sublist hitems)] at hbare
  rw [decode_eq, blockLines_render hstorable delay hpre hpost, hbare]

end Wrapper

end UserScripts
