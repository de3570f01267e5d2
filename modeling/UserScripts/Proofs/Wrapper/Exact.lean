import UserScripts.Proofs.Wrapper.Place
import UserScripts.Proofs.Wrapper.Render

/-!
# Which runs of lines are wrappers

A complete wrapper is a start marker and an end marker with no marker of either kind between them: nothing else about a page
matters, however its other markers stand. Main statements: `mem_rangesFrom`, `mem_blocks` and `covers_iff`.
-/

namespace UserScripts.Wrapper

open UserScripts.Text

/-- Whether a marker stands at a position. -/
def Marker.stands (m : Marker) (ls : List String) (i : Nat) : Bool :=
  ls[i]?.any m.marks

/-- A marker stands at a position if the line there is one. -/
theorem Marker.stands_iff {m : Marker} {ls : List String} {i : Nat} :
    m.stands ls i = true ↔ ∃ l, ls[i]? = some l ∧ m.marks l = true := by
  rw [stands, Option.any_eq_true]

/-- A marker at the first position is the first line. -/
@[simp]
theorem Marker.stands_cons_zero (m : Marker) (l : String) (ls : List String) : m.stands (l :: ls) 0 = m.marks l := by
  rw [stands, List.getElem?_cons_zero, Option.any_some]

/-- A marker at a later position is one of the lines after the first. -/
@[simp]
theorem Marker.stands_cons_succ (m : Marker) (l : String) (ls : List String) (i : Nat) :
    m.stands (l :: ls) (i + 1) = m.stands ls i := by
  rw [stands, List.getElem?_cons_succ, stands]

variable {opens closes : Marker} {ls : List String} {l : String} {i k : Nat} {r : Range}

/-- Whether the open run is closed at a position: an end marker stands there, and no marker before it. -/
structure Closes (opens closes : Marker) (ls : List String) (k : Nat) : Prop where
  closed : closes.stands ls k = true
  notOpened : opens.stands ls k = false
  quiet : ∀ j < k, opens.stands ls j = false ∧ closes.stands ls j = false

/-- A run is closed by the first line if that is an end marker. -/
theorem closes_cons_zero : Closes opens closes (l :: ls) 0 ↔ closes.marks l = true ∧ opens.marks l = false :=
  ⟨fun h => ⟨by simpa using h.closed, by simpa using h.notOpened⟩, fun h => ⟨by simpa using h.1, by simpa using h.2, by simp⟩⟩

/-- A run is closed by a later line if the first one is no marker. -/
theorem closes_cons_succ : Closes opens closes (l :: ls) (k + 1) ↔
    (opens.marks l = false ∧ closes.marks l = false) ∧ Closes opens closes ls k := by
  constructor
  · intro h
    refine ⟨by simpa using h.quiet 0 (Nat.succ_pos k), by simpa using h.closed, by simpa using h.notOpened, fun j hj => ?_⟩
    simpa using h.quiet (j + 1) (Nat.succ_lt_succ hj)
  · rintro ⟨hl, h⟩
    refine ⟨by simpa using h.closed, by simpa using h.notOpened, fun j hj => ?_⟩
    cases j with
    | zero => simpa using hl
    | succ j => simpa using h.quiet j (Nat.lt_of_succ_lt_succ hj)

/-- The open run is closed by the first line or further on, unless that line is a start marker. -/
theorem exists_closes_cons {f : Nat} : (∃ k, Closes opens closes (l :: ls) k ∧ r = (f, i + k)) ↔
    opens.marks l = false ∧
      (closes.marks l = true ∧ r = (f, i) ∨ closes.marks l = false ∧ ∃ k, Closes opens closes ls k ∧ r = (f, i + 1 + k)) := by
  constructor
  · rintro ⟨k, h, hr⟩
    cases k with
    | zero =>
      obtain ⟨hcloses, hopens⟩ := closes_cons_zero.mp h
      exact ⟨hopens, Or.inl ⟨hcloses, hr⟩⟩
    | succ k =>
      obtain ⟨⟨hopens, hcloses⟩, h⟩ := closes_cons_succ.mp h
      exact ⟨hopens, Or.inr ⟨hcloses, k, h, by rw [hr, Nat.add_assoc, Nat.add_comm 1 k]⟩⟩
  · rintro ⟨hopens, ⟨hcloses, hr⟩ | ⟨hcloses, k, h, hr⟩⟩
    · exact ⟨0, closes_cons_zero.mpr ⟨hcloses, hopens⟩, hr⟩
    · exact ⟨k + 1, closes_cons_succ.mpr ⟨⟨hopens, hcloses⟩, h⟩, by rw [hr, Nat.add_assoc, Nat.add_comm 1 k]⟩

/-- A run starts with the first line, or the first line does not count for it. -/
theorem exists_run_cons :
    (∃ a k, opens.stands (l :: ls) a = true ∧ Closes opens closes ((l :: ls).drop (a + 1)) k ∧ r = (i + a, i + a + 1 + k)) ↔
      (opens.marks l = true ∧ ∃ k, Closes opens closes ls k ∧ r = (i, i + 1 + k)) ∨
        ∃ a k, opens.stands ls a = true ∧ Closes opens closes (ls.drop (a + 1)) k ∧ r = (i + 1 + a, i + 1 + a + 1 + k) := by
  constructor
  · rintro ⟨a, k, hopens, hcloses, hr⟩
    cases a with
    | zero => exact Or.inl ⟨by simpa using hopens, k, hcloses, hr⟩
    | succ a =>
      refine Or.inr ⟨a, k, by simpa using hopens, hcloses, ?_⟩
      rw [hr, Nat.add_right_comm i 1 a, Nat.add_assoc i a 1]
  · rintro (⟨hopens, k, hcloses, hr⟩ | ⟨a, k, hopens, hcloses, hr⟩)
    · exact ⟨0, k, by simpa using hopens, hcloses, hr⟩
    · refine ⟨a + 1, k, by simpa using hopens, hcloses, ?_⟩
      rw [hr, Nat.add_right_comm i 1 a, Nat.add_assoc i a 1]

/-- The runs that are found: the open one, if an end marker comes first, and from every start marker on to the next marker, if that
is an end marker. -/
theorem mem_rangesFrom {isOpen : Option Nat} : r ∈ rangesFrom opens closes i isOpen ls ↔
    (∃ f ∈ isOpen, ∃ k, Closes opens closes ls k ∧ r = (f, i + k)) ∨
      ∃ a k, opens.stands ls a = true ∧ Closes opens closes (ls.drop (a + 1)) k ∧ r = (i + a, i + a + 1 + k) := by
  induction ls generalizing i isOpen with
  | nil =>
    refine iff_of_false List.not_mem_nil ?_
    rintro (⟨_, _, _, h, _⟩ | ⟨_, _, h, _⟩)
    · cases h.closed
    · cases h
  | cons l ls ih =>
    rw [rangesFrom_cons, exists_run_cons]
    simp only [exists_closes_cons]
    cases hopens : opens.marks l with
    | true =>
      rw [if_pos rfl, ih]
      simp
    | false =>
      rw [if_neg Bool.false_ne_true]
      cases hcloses : closes.marks l with
      | true =>
        cases isOpen with
        | none =>
          rw [Option.isSome_none, Bool.false_and, if_neg Bool.false_ne_true, ih]
          simp
        | some f =>
          rw [Option.isSome_some, Bool.true_and, if_pos rfl, List.mem_cons, ih]
          simp
      | false =>
        rw [Bool.and_false, if_neg Bool.false_ne_true, ih]
        simp

/-- A line is one marker at most. -/
theorem Marker.eq_of_marks {m m' : Marker} (h : m.marks l = true) (h' : m'.marks l = true) : m = m' := by
  rw [marks] at h h'
  cases hslashes : after? "//".toList (dropBlank l.toList) with
  | none => rw [hslashes] at h; cases h
  | some rest =>
    rw [hslashes] at h h'
    simp only at h h'
    cases hword : after? m.word.toList (dropBlank rest) with
    | none => rw [hword] at h; cases h
    | some a =>
      cases hword' : after? m'.word.toList (dropBlank rest) with
      | none => rw [hword'] at h'; cases h'
      | some b =>
        -- The words differ in their twelfth letter, or in their seventeenth one.
        have hsame := (after?_eq_some.mp hword).symm.trans (after?_eq_some.mp hword')
        have hletter := congrArg (·[11]?) hsame
        have hletter' := congrArg (·[16]?) hsame
        cases m <;> cases m' <;> simp [word] at hletter hletter' ⊢

/-- No line is both a start marker and an end marker. -/
theorem start_marks_of_stop_marks (h : Marker.stop.marks l = true) : Marker.start.marks l = false := by
  by_contra hstart
  exact absurd (Marker.eq_of_marks h ((Bool.not_eq_false _).mp hstart)) (by decide)

/-- A marker line is not blank. -/
theorem isBlankLine_of_marks {m : Marker} (h : m.marks l = true) : isBlankLine l = false := by
  by_contra hblank
  rw [Bool.not_eq_false, isBlankLine, List.all_eq_true] at hblank
  rw [Marker.marks, dropBlank_eq_nil.mpr hblank] at h
  cases h

/-- An opening marker and a closing marker with no marker of the two kinds between them. -/
structure Delimits (opens closes : Marker) (ls : List String) (r : Range) : Prop where
  lt : r.1 < r.2
  first : opens.stands ls r.1 = true
  last : closes.stands ls r.2 = true
  between : ∀ k, r.1 < k → k < r.2 → opens.stands ls k = false ∧ closes.stands ls k = false

/-- At a position at most one marker stands. -/
theorem Marker.not_stands_of_ne {m m' : Marker} (hne : m ≠ m') (h : m.stands ls i = true) : m'.stands ls i = false := by
  obtain ⟨l, hl, hmarks⟩ := Marker.stands_iff.mp h
  rw [Marker.stands, hl, Option.any_some]
  by_contra hmarks'
  exact hne (Marker.eq_of_marks hmarks ((Bool.not_eq_false _).mp hmarks'))

/-- An end marker is no start marker. -/
theorem stands_start_of_stop (h : Marker.stop.stands ls i = true) : Marker.start.stands ls i = false :=
  Marker.not_stands_of_ne (by decide) h

/-- A marker behind some lines, told by its place among the rest. -/
theorem Marker.stands_drop (m : Marker) (ls : List String) (n i : Nat) : m.stands (ls.drop n) i = m.stands ls (n + i) := by
  rw [stands, stands, List.getElem?_drop]

/-- A marker stands at a position of the page. -/
theorem lt_length_of_stands {m : Marker} (h : m.stands ls i = true) : i < ls.length := by
  obtain ⟨line, hline, -⟩ := Marker.stands_iff.mp h
  exact (List.getElem?_eq_some_iff.mp hline).1

/-- Lines that follow make no difference to the markers before them. -/
theorem Marker.stands_append_left (m : Marker) (more : List String) (h : i < ls.length) : m.stands (ls ++ more) i = m.stands ls i := by
  rw [stands, List.getElem?_append_left h, stands]

/-- A marker behind some lines, told by its place among the lines that follow. -/
theorem Marker.stands_append_right (m : Marker) (ls more : List String) (i : Nat) :
    m.stands (ls ++ more) (ls.length + i) = m.stands more i := by
  rw [stands, List.getElem?_append_right (Nat.le_add_right _ _), Nat.add_sub_cancel_left, stands]

/-- No marker stands among lines that are none. -/
theorem not_stands_of_unmarked (h : Unmarked ls) (i : Nat) : Marker.start.stands ls i = false ∧ Marker.stop.stands ls i = false := by
  cases hline : ls[i]? with
  | none => exact ⟨by rw [Marker.stands, hline, Option.any_none], by rw [Marker.stands, hline, Option.any_none]⟩
  | some line =>
    rw [Marker.stands, Marker.stands, hline]
    exact h line (List.mem_of_getElem? hline)

/-- If no run is open at first, the runs that are found are those between an opening marker and the closing one after it. -/
theorem mem_rangesFrom_none (hne : closes ≠ opens) :
    r ∈ rangesFrom opens closes i none ls ↔ ∃ q, Delimits opens closes ls q ∧ r = (i + q.1, i + q.2) := by
  rw [mem_rangesFrom]
  constructor
  · rintro (⟨_, h, -⟩ | ⟨a, k, hfirst, hcloses, rfl⟩)
    · cases h
    · refine ⟨(a, a + 1 + k), ⟨by simp only; omega, hfirst, ?_, fun j h₁ h₂ => ?_⟩, by rw [← Nat.add_assoc, ← Nat.add_assoc]⟩
      · simpa [Marker.stands_drop] using hcloses.closed
      · simp only at h₁ h₂
        have hquiet := hcloses.quiet (j - (a + 1)) (by omega)
        rwa [Marker.stands_drop, Marker.stands_drop, show a + 1 + (j - (a + 1)) = j by omega] at hquiet
  · rintro ⟨q, h, rfl⟩
    have hlt := h.lt
    refine Or.inr ⟨q.1, q.2 - (q.1 + 1), h.first, ⟨?_, ?_, fun j hj => ?_⟩, Prod.ext rfl (by simp only; omega)⟩
    · rw [Marker.stands_drop, show q.1 + 1 + (q.2 - (q.1 + 1)) = q.2 by omega]
      exact h.last
    · rw [Marker.stands_drop, show q.1 + 1 + (q.2 - (q.1 + 1)) = q.2 by omega]
      exact Marker.not_stands_of_ne hne h.last
    · rw [Marker.stands_drop, Marker.stands_drop]
      exact h.between _ (by omega) (by omega)

/-- The complete wrappers of a page. -/
theorem mem_blocks : r ∈ blocks ls ↔ Delimits .start .stop ls r := by
  rw [blocks, mem_rangesFrom_none (by decide)]
  simp only [Nat.zero_add]
  constructor
  · rintro ⟨_, h, rfl⟩
    exact h
  · intro h
    exact ⟨r, h, rfl⟩

/-- A run between two markers is told by its first line. -/
theorem Delimits.snd_eq {r' : Range} (h : Delimits opens closes ls r) (h' : Delimits opens closes ls r') (hfirst : r.1 = r'.1) : r.2 = r'.2 := by
  have hlt := h.lt
  have hlt' := h'.lt
  rcases Nat.lt_trichotomy r.2 r'.2 with hlt₂ | heq | hlt₂
  · exact absurd h.last (by simp [(h'.between r.2 (by omega) hlt₂).2])
  · exact heq
  · exact absurd h'.last (by simp [(h.between r'.2 (by omega) hlt₂).2])

/-- A position is covered exactly if it lies in one of the complete wrappers. -/
theorem covers_iff : covers ls i = true ↔ ∃ r ∈ blocks ls, r.1 ≤ i ∧ i ≤ r.2 := by
  simp [covers, inside, Range.has]

/-- A rendered wrapper has a marker on its first line, one on its last line and no other. -/
theorem stands_render {items : List Item} (h : ∀ i ∈ items, i.Storable) (delay : Int) (k : Nat) :
    (Marker.start.stands (render items delay) k = true ↔ k = 0) ∧
      (Marker.stop.stands (render items delay) k = true ↔ k + 1 = (render items delay).length) := by
  have hbody : Unmarked (body items delay) := fun _ hl => not_block_of_mem_body h hl
  rw [render_eq]
  cases k with
  | zero =>
    simp only [Marker.stands_cons_zero, List.length_cons, List.length_append]
    exact ⟨by decide, by simp [show Marker.stop.marks Marker.start.line = false by decide]⟩
  | succ k =>
    rw [Marker.stands_cons_succ, Marker.stands_cons_succ, List.length_cons, List.length_append, List.length_singleton]
    rcases Nat.lt_trichotomy k (body items delay).length with hk | rfl | hk
    · obtain ⟨hstart, hstop⟩ := not_stands_of_unmarked hbody k
      rw [Marker.stands_append_left _ _ hk, Marker.stands_append_left _ _ hk, hstart, hstop]
      simp only [Bool.false_eq_true, false_iff]
      omega
    · have hlast := fun m => Marker.stands_append_right m (body items delay) [Marker.stop.line] 0
      simp only [Nat.add_zero, Marker.stands_cons_zero] at hlast
      rw [hlast, hlast]
      have hmarks : Marker.start.marks Marker.stop.line = false ∧ Marker.stop.marks Marker.stop.line = true := by decide
      exact ⟨by simp [hmarks.1], by simp [hmarks.2]⟩
    · have hnone : ∀ m : Marker, ¬m.stands (body items delay ++ [Marker.stop.line]) k = true := by
        intro m hm
        have := lt_length_of_stands hm
        rw [List.length_append, List.length_singleton] at this
        omega
      refine ⟨iff_of_false (hnone _) (by omega), iff_of_false (hnone _) (by omega)⟩

end UserScripts.Wrapper
