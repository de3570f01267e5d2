import UserScripts.Proofs.Page.Apart
import UserScripts.Proofs.Page.Off
import UserScripts.Proofs.Wrapper.Entry

/-!
# A page from which a script has been let out

A script that is let out of its wrapper runs if a line outside the wrappers runs it that is kept, or if its statement is written.
Markers that meet when the wrappers between them go can take such a line into a new wrapper. Main statements: `Layout.covers_page_iff`,
`runsOutside_kept_iff` and `runsOutside_append_iff`.
-/

namespace UserScripts.Page

open UserScripts.Text UserScripts.Wrapper

/-- A line is not commented out, and it loads a script or is the statement that is written for it. -/
def Runs (e : Entry) (s : Settings) (line : String) : Prop :=
  isDisabled line = false ∧ (loadsScript e s line = true ∨ (e.withDisabled false).statement s = .ok line)

/-- A line outside the complete wrappers runs a script. -/
def RunsOutside (ls : List String) (e : Entry) (s : Settings) : Prop :=
  ∃ i line, ls[i]? = some line ∧ covers ls i = false ∧ Runs e s line

/-- A line stands between a start marker and an end marker that are kept while all markers between those two are removed. -/
def Enclosed (removed : Nat → Bool) (old : List String) (n : Nat) : Prop :=
  ∃ i j, i ≤ n ∧ n ≤ j ∧ removed i = false ∧ removed j = false ∧
    Marker.start.stands old i = true ∧ Marker.stop.stands old j = true ∧
    ∀ k, i < k → k < j → Marker.start.stands old k = true ∨ Marker.stop.stands old k = true → removed k = true

variable {old : List String} {e : Entry} {s : Settings} {removed : Nat → Bool} {delay : Int} {n k : Nat} {text : String}

/-! ## Lines that run a script -/

/-- The statement of a script that is switched on runs it. -/
theorem runs_statement (h : (e.withDisabled false).statement s = .ok text) : Runs e s text := by
  refine ⟨?_, Or.inr h⟩
  obtain ⟨call, hcall, rfl⟩ := Entry.statement_eq h
  obtain ⟨rest, hrest, -⟩ := Entry.loadCall_toList hcall
  have hdisabled : (e.withDisabled false).disabled = false := rfl
  rw [isDisabled, hdisabled, if_neg Bool.false_ne_true, String.empty_append, String.toList_append, hrest]
  rfl

/-- A line that runs a script is not blank. -/
theorem isBlankLine_of_runs {line : String} (h : Runs e s line) : isBlankLine line = false := by
  rcases h.2 with hloads | hstatement
  · rw [← Bool.not_eq_true]
    intro hblank
    rw [loadsScript_of_blank hblank] at hloads
    cases hloads
  · exact Entry.isBlankLine_statement hstatement

/-! ## Lines of the new page -/

namespace Layout

variable {l : Layout}

/-- A kept line lies in a wrapper of the new page exactly if markers that are kept enclose it there. -/
theorem covers_page_iff (hkeeps : l.Keeps removed old) (hfits : l.Fits delay none) (hk : l.origin k = some n) :
    covers (l.page old) k = true ↔ Enclosed removed old n := by
  constructor
  · intro hcovers
    obtain ⟨r, hr, h₁, h₂⟩ := covers_iff.mp hcovers
    have hdelimits := mem_blocks.mp hr
    rcases hfits.wrapper_cases hdelimits with hw | ⟨i, j, hi, hj⟩
    · rw [hw.added k h₁ h₂] at hk
      cases hk
    · refine ⟨i, j, hkeeps.le hi hk h₁, hkeeps.le hk hj h₂, (hkeeps.of_origin hi).2, (hkeeps.of_origin hj).2,
        by rw [← hkeeps.stands_page hi, hdelimits.first], by rw [← hkeeps.stands_page hj, hdelimits.last],
        fun x => removed_of_delimits hkeeps hdelimits hi hj⟩
  · rintro ⟨i, j, hin, hnj, hi, hj, hstart, hstop, hgone⟩
    obtain ⟨a, ha⟩ := hkeeps.exists_origin hi (Or.inl hstart)
    obtain ⟨b, hb⟩ := hkeeps.exists_origin hj (Or.inr hstop)
    have hij : i < j := by
      refine Nat.lt_of_le_of_ne (hin.trans hnj) ?_
      rintro rfl
      rw [stands_start_of_stop hstop] at hstart
      cases hstart
    have hblock := mem_blocks_of_gone hkeeps hfits ha hb hij hstart hstop hgone (by simp)
    exact covers_iff.mpr ⟨(a, b), hblock, hkeeps.le_of_origin_le ha hk hin, hkeeps.le_of_origin_le hk hb hnj⟩

end Layout

/-! ## Lines outside the wrappers -/

/-- Lines that are no markers and run nothing may be added. -/
theorem runsOutside_append_of_unmarked {more : List String} (hmore : Unmarked more) (hnone : ∀ line ∈ more, ¬Runs e s line) :
    RunsOutside (old ++ more) e s ↔ RunsOutside old e s := by
  have hcovers : covers (old ++ more) = covers old := by
    funext i
    rw [covers, blocks_append_of_unmarked old hmore, covers]
  constructor
  · rintro ⟨i, line, hline, houtside, hruns⟩
    rw [List.getElem?_append] at hline
    split at hline
    · exact ⟨i, line, hline, by rwa [hcovers] at houtside, hruns⟩
    · exact absurd hruns (hnone line (List.mem_of_getElem? hline))
  · rintro ⟨i, line, hline, houtside, hruns⟩
    have hlt := (List.getElem?_eq_some_iff.mp hline).1
    exact ⟨i, line, by rwa [List.getElem?_append_left hlt], by rwa [hcovers], hruns⟩

/-- A wrapper may be added. -/
theorem runsOutside_append_render {items : List Item} (storable : ∀ i ∈ items, i.Storable) (delay : Int) :
    RunsOutside (old ++ render items delay) e s ↔ RunsOutside old e s := by
  have hcovers : ∀ {i}, i < old.length → covers (old ++ render items delay) i = covers old i := by
    intro i hi
    rw [Bool.eq_iff_iff, covers_append_render storable]
    exact or_iff_left fun h => absurd h.1 (Nat.not_le.mpr hi)
  constructor
  · rintro ⟨i, line, hline, houtside, hruns⟩
    have hlt : i < old.length := by
      by_contra hle
      have hlength := (List.getElem?_eq_some_iff.mp hline).1
      rw [List.length_append] at hlength
      rw [(covers_append_render storable old delay i).mpr (Or.inr ⟨Nat.not_lt.mp hle, hlength⟩)] at houtside
      cases houtside
    exact ⟨i, line, by rwa [List.getElem?_append_left hlt] at hline, by rwa [hcovers hlt] at houtside, hruns⟩
  · rintro ⟨i, line, hline, houtside, hruns⟩
    have hlt := (List.getElem?_eq_some_iff.mp hline).1
    exact ⟨i, line, by rwa [List.getElem?_append_left hlt], by rwa [hcovers hlt], hruns⟩

/-- What is appended to lines without a blank one at their end runs nothing outside the wrappers. -/
theorem runsOutside_append_iff {items : List Item} (storable : ∀ i ∈ items, i.Storable) (hfull : dropEndBlankLines old = old)
    (delay : Int) : RunsOutside (append old items delay) e s ↔ RunsOutside old e s := by
  by_cases hempty : items = []
  · rw [hempty, append_nil, hfull]
  · have hseparator : ∀ line ∈ separator old, ¬Runs e s line := by
      intro line hline hruns
      have hblank : isBlankLine line = true := by
        rcases separator_cases old with hnone | hone
        · rw [hnone] at hline
          cases hline
        · rw [hone, List.mem_singleton] at hline
          rw [hline]
          rfl
      rw [isBlankLine_of_runs hruns] at hblank
      cases hblank
    rw [append_eq hempty, hfull, ← List.append_assoc, runsOutside_append_render storable,
      runsOutside_append_of_unmarked (unmarked_separator old) hseparator]

/-- A statement that is written at the end of a page runs its script. -/
theorem runsOutside_concat (h : (e.withDisabled false).statement s = .ok text) : RunsOutside (old ++ [text]) e s := by
  refine ⟨old.length, text, by simp, ?_, runs_statement h⟩
  exact covers_end (unmarked_of_tame (Entry.tame_statement h)) 0

/-- No line is found for a script among those that are kept exactly if none of them loads it. -/
theorem plainLines_kept_eq_nil : plainLines (dropEndBlankLines (dropLines removed old)) e s (fun _ => false) = [] ↔
    ∀ i line, old[i]? = some line → removed i = false → loadsScript e s line = false := by
  obtain ⟨tail, htail, hblank⟩ := exists_dropEndBlankLines_append (dropLines removed old)
  rw [plainLines_eq_nil]
  constructor
  · intro h i line hline hkept
    have hmem := mem_dropLines.mpr ⟨i, hline, hkept⟩
    rw [htail] at hmem
    rcases List.mem_append.mp hmem with hmem | hmem
    · obtain ⟨k, hk⟩ := List.mem_iff_getElem?.mp hmem
      exact h k line hk rfl
    · exact loadsScript_of_blank (hblank line hmem) e s
  · intro h k line hk _
    obtain ⟨i, hline, hkept⟩ := mem_dropLines.mp (mem_of_mem_dropEndBlankLines (List.mem_of_getElem? hk))
    exact h i line hline hkept

/-- Of the lines that are kept, those run a script outside the wrappers that are not enclosed. -/
theorem runsOutside_kept_iff : RunsOutside (dropEndBlankLines (dropLines removed old)) e s ↔
    ∃ i line, old[i]? = some line ∧ removed i = false ∧ Runs e s line ∧ ¬Enclosed removed old i := by
  obtain ⟨l, hpage, hadded, hafter, hkeeps⟩ := Layout.exists_layout_end removed old []
  have hfits : l.Fits 0 none := .plain (by rw [hadded]; exact List.forall_mem_nil _) (Or.inl hadded)
  rw [List.append_nil] at hpage
  rw [← hpage]
  constructor
  · rintro ⟨k, line, hline, houtside, hruns⟩
    obtain ⟨i, hk⟩ : ∃ i, l.origin k = some i := by
      refine Option.ne_none_iff_exists'.mp fun hnone => ?_
      obtain ⟨d, hd, -⟩ := Layout.exists_added (List.getElem?_eq_some_iff.mp hline).1 hnone
      rw [hadded] at hd
      cases hd
    rw [hkeeps.getElem?_page hk] at hline
    rw [← Bool.not_eq_true, Layout.covers_page_iff hkeeps hfits hk] at houtside
    exact ⟨i, line, hline, (hkeeps.of_origin hk).2, hruns, houtside⟩
  · rintro ⟨i, line, hline, hkept, hruns, hfree⟩
    obtain ⟨k, hk⟩ := hkeeps.exists_origin_of_not_blank hkept hline (isBlankLine_of_runs hruns)
    refine ⟨k, line, by rwa [hkeeps.getElem?_page hk], ?_, hruns⟩
    rwa [← Bool.not_eq_true, Layout.covers_page_iff hkeeps hfits hk]

end UserScripts.Page
