import UserScripts.Proofs.Page.Off
import UserScripts.Proofs.Wrapper.Revised

/-!
# Statements switched off and on

Switching writes two slashes before the first character of a line that is not blank, or takes away those that stand there with one
space after them. A statement stays a statement of the same script, so the same lines are switched the next time, and switching a line
on undoes switching it off. Main statements: `ofLine?_switchLine`, `switched_switchAt`, `switchAt_again` and `switchAt_back`.
-/

namespace UserScripts

open UserScripts.Text

namespace Page

variable {line target : String} {disabled : Bool}

/-! ## A line switched off or on -/

/-- Slashes are put in front of a line after the blanks that it begins with. -/
theorem toList_disableLine (line : String) :
    (disableLine line).toList = takeBlank line.toList ++ '/' :: '/' :: dropBlank line.toList := by
  rw [disableLine, String.toList_ofList, List.append_assoc]
  rfl

/-- A line that is switched off begins with slashes. -/
theorem dropBlank_disableLine (line : String) : dropBlank (disableLine line).toList = '/' :: '/' :: dropBlank line.toList := by
  rw [toList_disableLine, dropBlank_append_of_blank fun _ => isBlank_of_mem_takeBlank]
  rfl

/-- What stands behind the slashes of a line stays when they go. -/
theorem dropBlank_enableLine {rest : List Char} (h : dropBlank line.toList = '/' :: '/' :: rest) :
    dropBlank (enableLine line).toList = dropBlank rest := by
  have hblank : ∀ c ∈ takeBlank line.toList, isBlank c = true := fun _ => isBlank_of_mem_takeBlank
  unfold enableLine
  split
  · next rest' hd =>
    obtain rfl : rest = ' ' :: rest' := by simpa using h.symm.trans hd
    rw [String.toList_ofList, dropBlank_append_of_blank hblank, dropBlank_cons_of_blank (by decide)]
  · next rest' _ hd =>
    obtain rfl : rest = rest' := by simpa using h.symm.trans hd
    rw [String.toList_ofList, dropBlank_append_of_blank hblank]
  · next hd => exact absurd h (hd rest)

/-- A line is switched off exactly if it begins with slashes, blanks aside. -/
theorem isDisabled_eq_true : isDisabled line = true ↔ ∃ rest, dropBlank line.toList = '/' :: '/' :: rest := by
  simp only [isDisabled, Option.isSome_iff_exists, after?_eq_some]
  rfl

/-- A line that is as it should be stays. -/
theorem switchLine_of_isDisabled (h : isDisabled line = disabled) : switchLine disabled line = line := by
  cases disabled with
  | true => rw [switchLine, if_pos rfl, if_pos h]
  | false =>
    have hslashes : ∀ rest, dropBlank line.toList ≠ '/' :: '/' :: rest := fun rest hrest => by
      rw [isDisabled_eq_true.mpr ⟨rest, hrest⟩] at h
      cases h
    rw [switchLine, if_neg Bool.false_ne_true]
    unfold enableLine
    split
    · next hd => exact absurd hd (hslashes _)
    · next hd => exact absurd hd (hslashes _)
    · rfl

/-- The slashes that are written are those that are taken away, and no space is lost with them. -/
theorem enableLine_disableLine (line : String) : enableLine (disableLine line) = line := by
  have hd := dropBlank_disableLine line
  have htake : takeBlank (disableLine line).toList = takeBlank line.toList := by
    have hparts := (takeBlank_append_dropBlank (disableLine line).toList).trans (toList_disableLine line)
    rw [hd] at hparts
    exact List.append_cancel_right hparts
  generalize disableLine line = off at hd htake
  unfold enableLine
  split
  · next rest hspace =>
    -- what follows the slashes does not start with a blank
    have hrest : dropBlank line.toList = ' ' :: rest := by simpa using hd.symm.trans hspace
    exact absurd (isBlank_head_dropBlank hrest) (by decide)
  · next rest _ hslashes =>
    obtain rfl : dropBlank line.toList = rest := by simpa using hd.symm.trans hslashes
    rw [htake, takeBlank_append_dropBlank, String.ofList_toList]
  · next hnone => exact absurd hd (hnone _)

/-! ## A statement switched off or on -/

/-- Whether a call opens does not depend on blanks before it. -/
theorem tokens?_callee_congr {s t : List Char} (h : dropBlank s = dropBlank t) (callee : Callee) :
    tokens? callee.tokens s = tokens? callee.tokens t := by
  cases callee
  all_goals rw [Callee.tokens, ← tokens?_dropBlank, h, tokens?_dropBlank]

/-- A statement that opens in a line opens in it after switching, off or on as asked for. -/
theorem opens_switchLine {was : Bool} {callee : Callee} {quote : Char} {ahead : List Char} (disabled : Bool)
    (h : Statement.Opens line.toList was callee quote ahead) :
    Statement.Opens (switchLine disabled line).toList disabled callee quote ahead := by
  have hwas : isDisabled line = was := by
    obtain ⟨_, -, hopening⟩ := Option.bind_eq_some_iff.mp (Statement.opens_iff.mp h)
    obtain ⟨_, -, heq⟩ := Option.map_eq_some_iff.mp hopening
    rw [← dropSlashes_fst]
    exact (Prod.mk.inj heq).1
  rw [Statement.opens_iff_tokens] at h ⊢
  refine ⟨h.1, ?_⟩
  obtain ⟨-, hopens⟩ := h
  by_cases hsame : was = disabled
  · subst hsame
    rwa [switchLine_of_isDisabled hwas]
  · cases disabled with
    | true =>
      obtain rfl : was = false := by simpa using hsame
      have hslashes : tokens? ["//"] (disableLine line).toList = some (dropBlank line.toList) := by
        rw [tokens?, dropBlank_disableLine]
        rfl
      rw [switchLine, if_pos rfl, hwas, if_neg Bool.false_ne_true, if_pos rfl, hslashes, Option.bind_some,
        tokens?_callee_congr (dropBlank_dropBlank _)]
      exact hopens
    | false =>
      obtain rfl : was = true := by simpa using hsame
      obtain ⟨rest, hrest⟩ := isDisabled_eq_true.mp hwas
      have hslashes : tokens? ["//"] line.toList = some rest := by
        rw [tokens?, hrest]
        rfl
      rw [if_pos rfl, hslashes, Option.bind_some] at hopens
      rw [switchLine, if_neg Bool.false_ne_true, if_neg Bool.false_ne_true, tokens?, Option.bind_some,
        tokens?_callee_congr (dropBlank_enableLine hrest)]
      exact hopens

/-- The entry of a statement that is switched is the entry switched. -/
theorem withDisabled_entry (st : Statement) (target : String) (disabled : Bool) :
    Statement.entry { st with disabled } target = (st.entry target).withDisabled disabled := by
  obtain ⟨was, callee, body, mediaType, rest, hbody⟩ := st
  cases callee with
  | importScript => rfl
  | load =>
    simp only [Statement.entry, Statement.argument, Entry.ofAddress]
    split
    · split <;> rfl
    · rfl

/-- A statement that is switched off or on is a statement of the same script. -/
theorem ofLine?_switchLine {a : Entry} (disabled : Bool) (h : Entry.ofLine? line target = some a) :
    Entry.ofLine? (switchLine disabled line) target = some (a.withDisabled disabled) := by
  obtain ⟨st, hst, rfl⟩ := Option.map_eq_some_iff.mp h
  obtain ⟨quote, ahead, hopens, hliteral⟩ := Statement.ofLine?_eq_some.mp hst
  have hswitched : Statement.ofLine? (switchLine disabled line).toList = some { st with disabled } :=
    Statement.ofLine?_eq_some.mpr ⟨quote, ahead, opens_switchLine disabled hopens, hliteral⟩
  rw [Entry.ofLine?, hswitched, Option.map_some, withDisabled_entry]

/-- A statement is switched off or on. -/
theorem isDisabled_switchLine {a : Entry} (disabled : Bool) (h : Entry.ofLine? line target = some a) :
    isDisabled (switchLine disabled line) = disabled :=
  (disabled_of_ofLine? (ofLine?_switchLine disabled h)).symm

/-! ## The statements of a script switched off or on -/

variable {ls new : List String} {e : Entry} {s : Settings} {skip : Nat → Bool} {i : Nat} {positions : List Nat}

/-- The positions of the statements outside the complete wrappers that load a script. -/
def ownLines (ls : List String) (e : Entry) (s : Settings) : List Nat :=
  statementLines ls e s (Wrapper.covers ls)

/-- Lines of which those at some positions are switched off or on. -/
def switchAt (disabled : Bool) (positions : List Nat) (ls : List String) : List String :=
  ls.mapIdx fun i line => if positions.contains i then switchLine disabled line else line

/-- What switching the statements of a script off or on makes of the lines of a page. -/
structure Switched (e : Entry) (s : Settings) (disabled : Bool) (ls new : List String) : Prop where
  /-- Each of the statements loads what it has loaded, and is switched off or on. -/
  turned : ∀ i ∈ ownLines ls e s, ∃ line line' a, ls[i]? = some line ∧ new[i]? = some line' ∧
    Entry.ofLine? line e.target = some a ∧ Entry.ofLine? line' e.target = some (a.withDisabled disabled)
  /-- The other lines stay. -/
  others : ∀ i, i ∉ ownLines ls e s → new[i]? = ls[i]?
  /-- The statements of the script are on the same lines. -/
  ownLines : ownLines new e s = ownLines ls e s
  blocks : Wrapper.blocks new = Wrapper.blocks ls
  decode : Wrapper.decode new = Wrapper.decode ls

/-- The own lines of a script are the statements outside the complete wrappers that load it. -/
theorem mem_ownLines : i ∈ ownLines ls e s ↔ Wrapper.covers ls i = false ∧
    ∃ line a, ls[i]? = some line ∧ Entry.ofLine? line e.target = some a ∧ a.sameScript e s = true := by
  simp only [ownLines, statementLines_eq, mem_positionsOf, byStatement, Option.any_eq_true, exists_and_left]

/-- Lines that agree in a property have it at the same positions. -/
theorem positionsOf_congr {p : String → Bool} (h : List.Forall₂ (fun l l' => p l' = p l) ls new) :
    positionsOf p skip new = positionsOf p skip ls := by
  have hfrom : ∀ start, ((new.zipIdx start).filter fun l => !skip l.2 && p l.1).map Prod.snd =
      ((ls.zipIdx start).filter fun l => !skip l.2 && p l.1).map Prod.snd := by
    induction h with
    | nil => exact fun _ => rfl
    | cons hline _ ih =>
      intro start
      rw [List.zipIdx_cons, List.zipIdx_cons, List.filter_cons, List.filter_cons]
      simp only [hline]
      split
      · rw [List.map_cons, List.map_cons, ih]
      · exact ih _
  exact hfrom 0

/-- The lines of a page after switching. -/
theorem getElem?_switchAt (disabled : Bool) (positions : List Nat) (ls : List String) (i : Nat) :
    (switchAt disabled positions ls)[i]? = ls[i]?.map fun line => if positions.contains i then switchLine disabled line else line :=
  List.getElem?_mapIdx

/-- A line at one of the positions is switched. -/
theorem getElem?_switchAt_of_mem (h : i ∈ positions) (disabled : Bool) (ls : List String) :
    (switchAt disabled positions ls)[i]? = ls[i]?.map (switchLine disabled) := by
  simp only [getElem?_switchAt, List.contains_iff_mem.mpr h, if_true]

/-- A line at none of the positions stays as it is. -/
theorem getElem?_switchAt_of_not_mem (h : i ∉ positions) (disabled : Bool) (ls : List String) :
    (switchAt disabled positions ls)[i]? = ls[i]? := by
  have hid : (fun line => if positions.contains i then switchLine disabled line else line) = id := by
    funext line
    rw [if_neg (by simpa using h), id]
  rw [getElem?_switchAt, hid, Option.map_id, id]

/-- Switching leaves the number of lines. -/
theorem length_switchAt (disabled : Bool) (positions : List Nat) (ls : List String) : (switchAt disabled positions ls).length = ls.length :=
  List.length_mapIdx

/-- Lines that are switched are lines. -/
theorem isLine_switchAt (h : ∀ l ∈ ls, IsLine l) : ∀ l ∈ switchAt disabled positions ls, IsLine l := by
  intro l hl
  obtain ⟨i, hi, rfl⟩ := List.mem_mapIdx.mp hl
  split
  · exact isLine_switchLine disabled (h _ (List.getElem_mem hi))
  · exact h _ (List.getElem_mem hi)

/-- Switching a script switches its own lines, if there are any. -/
theorem setDisabled_eq (found : ownLines ls e s ≠ []) (disabled : Bool) :
    setDisabled ls e disabled s = .ok (switchAt disabled (ownLines ls e s) ls) := by
  have hplain : plainLines ls e s (Wrapper.inside (Wrapper.blocks ls)) = ownLines ls e s := by
    unfold plainLines
    split
    · next hnil => exact absurd hnil found
    · rfl
  rw [setDisabled, hplain]
  split
  · next hnil => exact absurd hnil found
  · rfl

/-- At a position of a statement the line is a statement of the script, before and after. -/
theorem ofLine?_switchAt (h : i ∈ ownLines ls e s) (disabled : Bool) : ∃ line a, ls[i]? = some line ∧
    Entry.ofLine? line e.target = some a ∧ (switchAt disabled (ownLines ls e s) ls)[i]? = some (switchLine disabled line) ∧
    Entry.ofLine? (switchLine disabled line) e.target = some (a.withDisabled disabled) := by
  obtain ⟨-, line, a, hline, ha, -⟩ := mem_ownLines.mp h
  refine ⟨line, a, hline, ha, ?_, ofLine?_switchLine disabled ha⟩
  rw [getElem?_switchAt_of_mem h, hline, Option.map_some]

/-- Switching statements leaves the wrappers as they are. -/
theorem revised_switchAt (disabled : Bool) : Wrapper.Revised ls (switchAt disabled (ownLines ls e s) ls) where
  length_eq := length_switchAt _ _ _
  line {i l l'} hl hl' := by
    by_cases hi : i ∈ ownLines ls e s
    · obtain ⟨line, a, hline, ha, hnew, hswitched⟩ := ofLine?_switchAt hi disabled
      obtain rfl := Option.some.inj (hline.symm.trans hl)
      obtain rfl := Option.some.inj (hnew.symm.trans hl')
      exact Or.inr ⟨(mem_ownLines.mp hi).1, tame_of_ofLine? ha, tame_of_ofLine? hswitched⟩
    · rw [getElem?_switchAt_of_not_mem hi, hl] at hl'
      exact Or.inl (Option.some.inj hl').symm

/-- Switching statements leaves them where they are. -/
theorem ownLines_switchAt (disabled : Bool) : ownLines (switchAt disabled (ownLines ls e s) ls) e s = ownLines ls e s := by
  have hsame : List.Forall₂ (fun l l' => byStatement e s l' = byStatement e s l) ls (switchAt disabled (ownLines ls e s) ls) := by
    refine List.forall₂_iff_get.mpr ⟨(length_switchAt _ _ _).symm, fun i hi hi' => ?_⟩
    have hl := List.getElem?_eq_getElem hi
    have hl' := List.getElem?_eq_getElem hi'
    rw [List.get_eq_getElem, List.get_eq_getElem]
    by_cases hmem : i ∈ ownLines ls e s
    · obtain ⟨line, a, hline, ha, hnew, hswitched⟩ := ofLine?_switchAt hmem disabled
      rw [← Option.some.inj (hline.symm.trans hl), ← Option.some.inj (hnew.symm.trans hl'), byStatement, byStatement, ha, hswitched]
      rfl
    · rw [getElem?_switchAt_of_not_mem hmem, hl] at hl'
      rw [Option.some.inj hl']
  rw [ownLines, (revised_switchAt disabled).covers, statementLines_eq, positionsOf_congr hsame, ← statementLines_eq, ← ownLines]

/-- Switching the own lines of a script is what `Switched` says. -/
theorem switched_switchAt (ls : List String) (e : Entry) (s : Settings) (disabled : Bool) :
    Switched e s disabled ls (switchAt disabled (ownLines ls e s) ls) where
  turned i hi := by
    obtain ⟨line, a, hline, ha, hnew, hswitched⟩ := ofLine?_switchAt hi disabled
    exact ⟨line, _, a, hline, hnew, ha, hswitched⟩
  others i hi := getElem?_switchAt_of_not_mem hi _ _
  ownLines := ownLines_switchAt disabled
  blocks := (revised_switchAt disabled).blocks
  decode := (revised_switchAt disabled).decode

/-- Statements that are switched off or on stay as they are when that is done again. -/
theorem switchAt_again (disabled : Bool) : switchAt disabled (ownLines ls e s) (switchAt disabled (ownLines ls e s) ls) =
    switchAt disabled (ownLines ls e s) ls := by
  refine List.ext_getElem? fun i => ?_
  by_cases hi : i ∈ ownLines ls e s
  · obtain ⟨line, a, -, ha, hnew, -⟩ := ofLine?_switchAt hi disabled
    rw [getElem?_switchAt_of_mem hi, hnew, Option.map_some, switchLine_of_isDisabled (isDisabled_switchLine disabled ha)]
  · rw [getElem?_switchAt_of_not_mem hi]

/-- Statements that were all switched on are as they were after they have been switched off and on. -/
theorem switchAt_back (on : ∀ i ∈ ownLines ls e s, ∀ line, ls[i]? = some line → isDisabled line = false) :
    switchAt false (ownLines ls e s) (switchAt true (ownLines ls e s) ls) = ls := by
  refine List.ext_getElem? fun i => ?_
  by_cases hi : i ∈ ownLines ls e s
  · obtain ⟨line, a, hline, -, hnew, -⟩ := ofLine?_switchAt hi true
    have hoff : switchLine true line = disableLine line := by
      rw [switchLine, if_pos rfl, on i hi line hline, if_neg Bool.false_ne_true]
    rw [getElem?_switchAt_of_mem hi, hnew, Option.map_some, hoff, switchLine, if_neg Bool.false_ne_true, enableLine_disableLine, hline]
  · rw [getElem?_switchAt_of_not_mem hi, getElem?_switchAt_of_not_mem hi]

end Page

end UserScripts
