import UserScripts.Proofs.Wrapper.Exact

/-!
# How runs of lines are detected

The scan keeps one open marker in mind, gives it up at the next one of its kind, and passes by closing markers that close nothing. What
it lists has a description without any scan: every opening marker that is followed by a closing one, with no marker of the two kinds
between them, from the first to the last. Main statement: `runs_are_found_exactly`.
-/

namespace UserScripts.Wrapper

open UserScripts.Text

variable {opens closes : Marker} {ls : List String} {q r w : Range} {i k : Nat}

/-! ## Order -/

/-- The ranges of lines begin with the first line or later. -/
theorem le_fst_of_mem_rangesFrom (h : r ∈ rangesFrom opens closes i none ls) : i ≤ r.1 := by
  rcases mem_rangesFrom.mp h with ⟨_, hopen, -⟩ | ⟨a, k, -, -, rfl⟩
  · cases hopen
  · exact Nat.le_add_right i a

/-- Each run ends before the next one starts. -/
theorem pairwise_rangesFrom (opens closes : Marker) (i : Nat) (isOpen : Option Nat) (ls : List String) :
    (rangesFrom opens closes i isOpen ls).Pairwise fun r r' => r.2 < r'.1 := by
  induction ls generalizing i isOpen with
  | nil => exact List.Pairwise.nil
  | cons l ls ih =>
    rw [rangesFrom_cons]
    split
    · exact ih (i + 1) (some i)
    · split
      · exact List.pairwise_cons.mpr ⟨fun r' hr' => le_fst_of_mem_rangesFrom hr', ih (i + 1) none⟩
      · exact ih (i + 1) isOpen

/-! ## Runs within a range -/

/-- A marker stands on the lines of a range where it stands on the page. -/
theorem Marker.stands_linesOf (m : Marker) (ls : List String) (w : Range) (k : Nat) :
    m.stands (linesOf ls w) k = (decide (w.1 + k ≤ w.2) && m.stands ls (w.1 + k)) := by
  rw [linesOf, stands, List.getElem?_take]
  by_cases h : w.1 + k ≤ w.2
  · rw [if_pos (by omega), List.getElem?_drop, decide_eq_true h, Bool.true_and, stands]
  · rw [if_neg (by omega), decide_eq_false h, Bool.false_and, Option.any_none]

/-- The runs among the lines of a range are those of the page that lie in the range. -/
theorem delimits_linesOf : Delimits opens closes (linesOf ls w) q ↔
    w.1 + q.2 ≤ w.2 ∧ Delimits opens closes ls (w.1 + q.1, w.1 + q.2) := by
  constructor
  · intro h
    have hlt := h.lt
    have hfirst := h.first
    have hlast := h.last
    rw [Marker.stands_linesOf, Bool.and_eq_true, decide_eq_true_eq] at hfirst hlast
    refine ⟨hlast.1, Nat.add_lt_add_left hlt w.1, hfirst.2, hlast.2, fun k h₁ h₂ => ?_⟩
    simp only at h₁ h₂
    have hquiet := h.between (k - w.1) (by omega) (by omega)
    rwa [Marker.stands_linesOf, Marker.stands_linesOf, decide_eq_true (by omega), Bool.true_and, Bool.true_and,
      show w.1 + (k - w.1) = k by omega] at hquiet
  · rintro ⟨hend, h⟩
    have hlt : q.1 < q.2 := Nat.lt_of_add_lt_add_left h.lt
    refine ⟨hlt, ?_, ?_, fun k h₁ h₂ => ?_⟩
    · rw [Marker.stands_linesOf, decide_eq_true (by omega), Bool.true_and]
      exact h.first
    · rw [Marker.stands_linesOf, decide_eq_true hend, Bool.true_and]
      exact h.last
    · rw [Marker.stands_linesOf, Marker.stands_linesOf, decide_eq_true (by omega), Bool.true_and, Bool.true_and]
      exact h.between (w.1 + k) (Nat.add_lt_add_left h₁ w.1) (Nat.add_lt_add_left h₂ w.1)

/-- The complete items within a range. -/
theorem mem_itemRanges : r ∈ itemRanges ls w ↔ w.1 ≤ r.1 ∧ r.2 ≤ w.2 ∧ Delimits .itemStart .itemStop ls r := by
  rw [itemRanges, mem_rangesFrom_none (by decide)]
  constructor
  · rintro ⟨q, h, rfl⟩
    obtain ⟨hend, h⟩ := delimits_linesOf.mp h
    exact ⟨Nat.le_add_right _ _, hend, h⟩
  · rintro ⟨hstart, hend, h⟩
    have hlt := h.lt
    have hfirst : w.1 + (r.1 - w.1) = r.1 := by omega
    have hlast : w.1 + (r.2 - w.1) = r.2 := by omega
    refine ⟨(r.1 - w.1, r.2 - w.1), delimits_linesOf.mpr ?_, by rw [hfirst, hlast]⟩
    rw [hfirst, hlast]
    exact ⟨hend, h⟩

/-! ## Exactness -/

/-- A list of just the runs of a kind, each of which ends before the next one starts. -/
structure Lists (found : List Range) (kind : Range → Prop) : Prop where
  ordered : found.Pairwise fun r r' => r.2 < r'.1
  mem_iff : ∀ r, r ∈ found ↔ kind r

/-- The positions that belong to complete wrappers. -/
theorem mem_coveredLines : i ∈ coveredLines ls ↔ ∃ r ∈ blocks ls, r.1 ≤ i ∧ i ≤ r.2 := by
  rw [coveredLines, List.mem_filter, List.mem_range]
  refine (and_iff_right_of_imp fun h => ?_).trans covers_iff
  obtain ⟨r, hr, -, hi⟩ := covers_iff.mp h
  exact Nat.lt_of_le_of_lt hi (lt_length_of_blocks hr).2

/-- Detection is exact. The wrappers that are found are, in order and apart from one another, just the runs from a start marker to an
end marker with neither of the two between them, wherever else such markers stand; the same holds of the items within any range and
their markers. The positions covered are those of the wrappers, each of them once and in order. -/
theorem runs_are_found_exactly (ls : List String) :
    Lists (blocks ls) (Delimits .start .stop ls) ∧
      (∀ lo hi, Lists (itemRanges ls (lo, hi)) fun r => lo ≤ r.1 ∧ r.2 ≤ hi ∧ Delimits .itemStart .itemStop ls r) ∧
      (coveredLines ls).Pairwise (· < ·) ∧
      ∀ i, i ∈ coveredLines ls ↔ ∃ r, Delimits .start .stop ls r ∧ r.1 ≤ i ∧ i ≤ r.2 := by
  refine ⟨⟨pairwise_rangesFrom _ _ _ _ _, fun r => mem_blocks⟩, fun lo hi => ⟨pairwise_rangesFrom _ _ _ _ _, fun r => mem_itemRanges⟩,
    List.pairwise_lt_range.filter _, fun i => ?_⟩
  rw [mem_coveredLines]
  simp only [mem_blocks]

/-- A start marker that comes again gives up the first one, and an end marker that closes nothing is passed by. -/
example : blocks ["// SM-CAPTURE-END", "// SM-CAPTURE-START", " //SM-CAPTURE-START x", "f();", "//\tSM-CAPTURE-END", "// SM-CAPTURE-END"] =
    [(2, 4)] := by decide

end UserScripts.Wrapper
