import UserScripts.Page.Change
import UserScripts.Proofs.Wrapper.Entry

/-!
# Facts about changes of a page

What each change of a page consists of when it succeeds: the lines that go, the items that stay and the lines that are written.
Main statements: `apply_install`, `apply_install_ne`, `splitItems_ok`, `removal_ok`, `capture_ok`, `release_ok` and `setDisabled_ok`.
-/

namespace UserScripts

open UserScripts.Text

namespace Page

/-! ## Statements at the end -/

/-- Whichever way an edit is sent, the page gets the new text. -/
theorem apply_extend (old new : String) : (extend old new).apply old = new := by
  unfold extend
  split
  · next h => rw [h, Change.apply]; exact String.empty_append
  · split
    · split
      · next added ha =>
        rw [Change.apply]
        apply String.toList_injective
        rw [String.toList_append, String.toList_ofList, after?_eq_some.mp ha]
      · rfl
    · rfl

/-- A page with a statement at its end consists of the lines up to the last one that is not blank, the statement and an empty
line. -/
theorem withStatement_eq (ls : List String) (statement : String) :
    withStatement ls statement = unlines (dropEndBlankLines ls ++ [statement, ""]) := by
  have hend : unlines [statement, ""] = statement ++ "\n" := by
    rw [unlines_cons_cons, unlines_singleton, String.append_empty]
  cases hk : dropEndBlankLines ls with
  | nil =>
    rw [List.nil_append, hend, withStatement, hk]
    simp
  | cons l kept =>
    rw [unlines_append (by simp) (by simp), hend, withStatement, hk]
    simp [String.append_assoc]

/-- The lines of a page with a statement at its end. -/
theorem lines_withStatement {ls : List String} {statement : String} (hls : ∀ l ∈ ls, IsLine l) (hstatement : IsLine statement) :
    lines (withStatement ls statement) = dropEndBlankLines ls ++ [statement, ""] := by
  rw [withStatement_eq, lines_unlines (by simp)]
  intro l hl
  rcases List.mem_append.mp hl with hl | hl
  · exact hls l (mem_of_mem_dropEndBlankLines hl)
  · rcases List.mem_pair.mp hl with rfl | rfl
    · exact hstatement
    · decide

/-- Installing writes the statement after the last line that is not blank, and an empty line after it. -/
theorem apply_install (ls : List String) (statement : String) :
    (install ls statement).apply (unlines ls) = unlines (dropEndBlankLines ls ++ [statement, ""]) := by
  rw [install, apply_extend, withStatement_eq]

/-- Lines that are blank hold blanks only. -/
theorem countP_unlines_of_blank {ls : List String} (h : ∀ l ∈ ls, isBlankLine l = true) :
    (unlines ls).toList.countP (!isBlank ·) = 0 := by
  induction ls with
  | nil => rfl
  | cons l ls ih =>
    have hl : l.toList.countP (!isBlank ·) = 0 := by
      have hall : l.toList.all isBlank = true := h l List.mem_cons_self
      rw [List.countP_eq_zero]
      intro c hc
      simp [List.all_eq_true.mp hall c hc]
    rw [← List.singleton_append, countP_unlines_append (by decide), unlines_singleton, hl,
      ih fun m hm => h m (List.mem_cons_of_mem _ hm)]

/-- Installing a statement that is not blank changes the text of the page. -/
theorem apply_install_ne {statement : String} (h : isBlankLine statement = false) (ls : List String) :
    (install ls statement).apply (unlines ls) ≠ unlines ls := by
  intro heq
  rw [apply_install] at heq
  obtain ⟨tail, hls, htail⟩ := exists_dropEndBlankLines_append ls
  -- The blank lines that go hold nothing that could make up for the statement.
  have hold : (unlines ls).toList.countP (!isBlank ·) = (unlines (dropEndBlankLines ls)).toList.countP (!isBlank ·) := by
    conv => lhs; rw [hls]
    rw [countP_unlines_append (by decide), countP_unlines_of_blank htail, Nat.add_zero]
  have hnew : 0 < (unlines [statement, ""]).toList.countP (!isBlank ·) := by
    obtain ⟨c, hc, hblank⟩ := List.all_eq_false.mp h
    refine List.countP_pos_iff.mpr ⟨c, ?_, by simpa using hblank⟩
    rw [unlines_cons_cons, String.toList_append, String.toList_append]
    exact List.mem_append_left _ (List.mem_append_left _ hc)
  have hcount := congrArg (fun text => text.toList.countP (!isBlank ·)) heq
  simp only [countP_unlines_append (p := (!isBlank ·)) (by decide)] at hcount
  omega

/-! ## Items that load a script -/

/-- The items of a list are those that load a script, and the others. -/
theorem splitItems_ok {e : Entry} {s : Settings} {items own others : List Item} (h : splitItems e s items = .ok (own, others)) :
    own = items.filter (·.holds e s) ∧ others = items.filter fun i => !i.holds e s := by
  induction items generalizing own others with
  | nil =>
    obtain ⟨rfl, rfl⟩ := Prod.mk.inj (Except.ok.inj h)
    exact ⟨rfl, rfl⟩
  | cons i items ih =>
    rw [splitItems] at h
    cases hi : i.loads e s with
    | error malformed => rw [hi] at h; nomatch h
    | ok here =>
      rw [hi] at h
      cases hrest : splitItems e s items with
      | error malformed => rw [hrest] at h; nomatch h
      | ok parts =>
        obtain ⟨own', others'⟩ := parts
        obtain ⟨hown, hothers⟩ := ih hrest
        rw [hrest] at h
        have hholds : i.holds e s = here := by rw [Item.holds, hi]
        simp only [List.filter_cons, hholds]
        cases here with
        | true =>
          obtain ⟨rfl, rfl⟩ := Prod.mk.inj (Except.ok.inj h)
          exact ⟨by rw [hown, if_pos rfl], by rw [hothers]; rfl⟩
        | false =>
          obtain ⟨rfl, rfl⟩ := Prod.mk.inj (Except.ok.inj h)
          exact ⟨by rw [hown]; rfl, by rw [hothers]; rfl⟩

/-- No item of a script is found exactly if none of the items holds it. -/
theorem isEmpty_filter_holds (items : List Item) (e : Entry) (s : Settings) :
    (items.filter (·.holds e s)).isEmpty = !items.any (·.holds e s) := by
  rw [Bool.eq_iff_iff, List.isEmpty_iff, List.filter_eq_nil_iff]
  simp

/-- The positions of the lines outside the complete wrappers that load a script. -/
def plainOf (ls : List String) (e : Entry) (s : Settings) : List Nat :=
  plainLines ls e s (Wrapper.inside (Wrapper.blocks ls))

/-- What has to go for a script to be removed, and the items that stay if a wrapper has to be written anew. -/
theorem removal_ok {ls : List String} {e : Entry} {s : Settings} {r : Removal} (h : removal ls e s = .ok r) :
    r.lines = plainOf ls e s ∧
      r.items = if (Wrapper.decode ls).any (·.holds e s) then some ((Wrapper.decode ls).filter fun i => !i.holds e s) else none := by
  unfold removal at h
  cases hs : splitItems e s (Wrapper.decode ls) with
  | error malformed => rw [hs] at h; nomatch h
  | ok parts =>
    obtain ⟨own, others⟩ := parts
    obtain ⟨hown, hothers⟩ := splitItems_ok hs
    rw [hs] at h
    simp only [Failure.ofUrl, Except.mapError, bind, Except.bind] at h
    split at h
    · nomatch h
    · obtain rfl := Except.ok.inj h
      refine ⟨rfl, ?_⟩
      have hempty : own.isEmpty = !(Wrapper.decode ls).any (·.holds e s) := by
        rw [hown, isEmpty_filter_holds]
      simp only [hempty, hothers]
      cases (Wrapper.decode ls).any (·.holds e s) <;> rfl

/-- What a page becomes when a script is captured: what is left of it, and a wrapper of the other items and the new one. -/
theorem capture_ok {ls new : List String} {e : Entry} {name : Option String} {s : Settings} (h : capture ls e name s = .ok new) :
    ∃ item, Item.ofEntry e (captureName name ((Wrapper.decode ls).filter (·.holds e s))) s = .ok item ∧
      new = Wrapper.append (dropLines (fun i => (plainOf ls e s).contains i || Wrapper.inside (Wrapper.blocks ls) i) ls)
        (((Wrapper.decode ls).filter fun i => !i.holds e s) ++ [item]) s.fallbackDelay := by
  unfold capture at h
  cases hs : splitItems e s (Wrapper.decode ls) with
  | error malformed => rw [hs] at h; nomatch h
  | ok parts =>
    obtain ⟨own, others⟩ := parts
    obtain ⟨hown, hothers⟩ := splitItems_ok hs
    rw [hs] at h
    simp only [Failure.ofUrl, Except.mapError, bind, Except.bind] at h
    split at h
    · nomatch h
    · cases hi : Item.ofEntry e (captureName name own) s with
      | error malformed => rw [hi] at h; nomatch h
      | ok item =>
        rw [hi] at h
        obtain rfl := Except.ok.inj h
        rw [← hown, ← hothers]
        exact ⟨item, hi, rfl⟩

/-- What is left of a page when a script is let out of its wrapper. -/
theorem release_ok {ls : List String} {e : Entry} {s : Settings} {r : Release} (h : release ls e s = .ok r) :
    (Wrapper.decode ls).any (·.holds e s) = true ∧
      r.kept = dropEndBlankLines (dropLines (Wrapper.inside (Wrapper.blocks ls)) ls) ∧
      r.items = (Wrapper.decode ls).filter fun i => !i.holds e s := by
  unfold release at h
  simp only [Failure.ofUrl, bind, Except.bind] at h
  split at h
  · nomatch h
  · cases hs : splitItems e s (Wrapper.decode ls) with
    | error malformed => rw [hs] at h; nomatch h
    | ok parts =>
      obtain ⟨own, others⟩ := parts
      obtain ⟨hown, hothers⟩ := splitItems_ok hs
      rw [hs] at h
      simp only [Except.mapError] at h
      split at h
      · nomatch h
      · next hne =>
        obtain rfl := Except.ok.inj h
        refine ⟨?_, rfl, hothers⟩
        rw [hown, isEmpty_filter_holds] at hne
        simpa using hne

/-- Switching a script off or on switches the lines that load it and no others. -/
theorem setDisabled_ok {ls new : List String} {e : Entry} {disabled : Bool} {s : Settings}
    (h : setDisabled ls e disabled s = .ok new) :
    new = ls.mapIdx fun i line => if (plainOf ls e s).contains i then switchLine disabled line else line := by
  unfold setDisabled at h
  split at h
  · nomatch h
  · next found hf =>
    rw [← Except.ok.inj h]
    rfl

end Page

end UserScripts
