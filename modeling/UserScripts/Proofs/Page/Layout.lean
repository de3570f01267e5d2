import UserScripts.Proofs.Page.Frame
import UserScripts.Proofs.Wrapper.Exact

/-!
# Where the lines of a page come from

Each line of a changed page is a line of the old page or has been added. A layout tells which, so that it can be said of a line, and
not only of a text, that it is kept. Main statements: `Layout.Keeps.lt`, `Layout.Keeps.run` and `Layout.exists_layout_replaceFrom`.
-/

namespace UserScripts.Page

open UserScripts.Text UserScripts.Wrapper

/-- A page that is made of lines of an old page, told by their positions, around lines that are added. -/
structure Layout where
  before : List Nat
  added : List String
  after : List Nat

namespace Layout

/-- The lines of the new page. -/
def page (l : Layout) (old : List String) : List String :=
  l.before.map (fun i => old[i]?.getD "") ++ l.added ++ l.after.map fun i => old[i]?.getD ""

/-- The position that a line of the new page has on the old one, unless it is added. -/
def origin (l : Layout) (k : Nat) : Option Nat :=
  if k < l.before.length then l.before[k]?
  else if k < l.before.length + l.added.length then none
  else l.after[k - (l.before.length + l.added.length)]?

/-- All lines but those at the removed positions are kept, in their order and each once, apart from blank lines at the end. -/
def Keeps (l : Layout) (removed : Nat → Bool) (old : List String) : Prop :=
  ∃ tail, (List.range old.length).filter (fun i => !removed i) = l.before ++ l.after ++ tail ∧
    ∀ i ∈ tail, isBlankLine (old[i]?.getD "") = true

variable {l : Layout} {old : List String} {removed : Nat → Bool} {i j k k' : Nat}

/-- The lines before the added ones have the positions that the layout lists there. -/
theorem origin_of_lt (h : k < l.before.length) : l.origin k = l.before[k]? := by
  rw [origin, if_pos h]

/-- A line that comes from the old page stands before the added ones or after them. -/
theorem origin_eq_some : l.origin k = some i ↔
    l.before[k]? = some i ∨ l.before.length + l.added.length ≤ k ∧ l.after[k - (l.before.length + l.added.length)]? = some i := by
  unfold origin
  split
  · next h => exact ⟨Or.inl, fun h' => h'.resolve_right fun h' => by omega⟩
  · next h =>
    have hnone : l.before[k]? = none := List.getElem?_eq_none (by omega)
    rw [hnone]
    split
    · next h' => exact iff_of_false (by simp) fun h'' => h''.elim (by simp) fun h'' => by omega
    · next h' => exact ⟨fun h'' => Or.inr ⟨by omega, h''⟩, fun h'' => (h''.resolve_left (by simp)).2⟩

/-- The added lines have no position on the old page. -/
theorem origin_eq_none_of_mem (h₁ : l.before.length ≤ k) (h₂ : k < l.before.length + l.added.length) : l.origin k = none := by
  rw [origin, if_neg (by omega), if_pos h₂]

/-! ## Kept lines -/

/-- The positions that are not removed are in order. -/
theorem pairwise_kept (removed : Nat → Bool) (n : Nat) : ((List.range n).filter fun i => !removed i).Pairwise (· < ·) :=
  List.pairwise_lt_range.filter _

/-- Kept lines stand in the order in which they stood. -/
theorem Keeps.lt (h : l.Keeps removed old) (hi : l.origin k = some i) (hj : l.origin k' = some j) (hlt : k < k') : i < j := by
  obtain ⟨tail, hkept, -⟩ := h
  have hsorted := pairwise_kept removed old.length
  rw [hkept, List.pairwise_append, List.pairwise_append] at hsorted
  obtain ⟨⟨hbefore, hafter, hboth⟩, -⟩ := hsorted
  rw [origin_eq_some] at hi hj
  rcases hi with hi | ⟨hk, hi⟩
  · rcases hj with hj | ⟨hk', hj⟩
    · obtain ⟨hlt₁, rfl⟩ := List.getElem?_eq_some_iff.mp hi
      obtain ⟨hlt₂, rfl⟩ := List.getElem?_eq_some_iff.mp hj
      exact List.pairwise_iff_getElem.mp hbefore _ _ _ _ hlt
    · exact hboth i (List.mem_of_getElem? hi) j (List.mem_of_getElem? hj)
  · rcases hj with hj | ⟨hk', hj⟩
    · obtain ⟨hlt₂, -⟩ := List.getElem?_eq_some_iff.mp hj
      omega
    · obtain ⟨hlt₁, rfl⟩ := List.getElem?_eq_some_iff.mp hi
      obtain ⟨hlt₂, rfl⟩ := List.getElem?_eq_some_iff.mp hj
      exact List.pairwise_iff_getElem.mp hafter _ _ _ _ (by omega)

/-- Lines that come from the old page are in the order in which they were, told from the old page. -/
theorem Keeps.lt_of_origin_lt (h : l.Keeps removed old) (hi : l.origin k = some i) (hj : l.origin k' = some j) (hlt : i < j) : k < k' := by
  rcases Nat.lt_trichotomy k k' with hk | rfl | hk
  · exact hk
  · rw [hi] at hj
    exact absurd (Option.some.inj hj) (Nat.ne_of_lt hlt)
  · exact absurd (h.lt hj hi hk) (by omega)

/-- Lines that come from the old page are in the order in which they were, told from the new page. -/
theorem Keeps.le (h : l.Keeps removed old) (hi : l.origin k = some i) (hj : l.origin k' = some j) (hle : k ≤ k') : i ≤ j := by
  rcases Nat.eq_or_lt_of_le hle with rfl | hlt
  · rw [hi] at hj
    exact Nat.le_of_eq (Option.some.inj hj)
  · exact Nat.le_of_lt (h.lt hi hj hlt)

/-- Lines that come from the old page are in the order in which they were, told from the old page, for positions that may be
equal. -/
theorem Keeps.le_of_origin_le (h : l.Keeps removed old) (hi : l.origin k = some i) (hj : l.origin k' = some j) (hle : i ≤ j) :
    k ≤ k' := by
  by_contra hlt
  have := h.lt hj hi (by omega)
  omega

/-- A line of the old page is on the new one exactly if the layout lists it. -/
theorem exists_origin_iff : (∃ k, l.origin k = some i) ↔ i ∈ l.before ++ l.after := by
  simp only [origin_eq_some]
  rw [List.mem_append, List.mem_iff_getElem?, List.mem_iff_getElem?]
  constructor
  · rintro ⟨k, h | ⟨-, h⟩⟩
    · exact Or.inl ⟨k, h⟩
    · exact Or.inr ⟨_, h⟩
  · rintro (⟨k, h⟩ | ⟨k, h⟩)
    · exact ⟨k, Or.inl h⟩
    · exact ⟨l.before.length + l.added.length + k, Or.inr ⟨Nat.le_add_right _ _, by rwa [Nat.add_sub_cancel_left]⟩⟩

/-- A line that comes from the old page is one of its lines that are not removed. -/
theorem Keeps.of_origin (h : l.Keeps removed old) (hi : l.origin k = some i) : i < old.length ∧ removed i = false := by
  obtain ⟨tail, hkept, -⟩ := h
  have hmem : i ∈ (List.range old.length).filter fun i => !removed i := by
    rw [hkept]
    exact List.mem_append_left _ (exists_origin_iff.mp ⟨k, hi⟩)
  simpa using hmem

/-- A line that is neither blank nor removed is kept. -/
theorem Keeps.exists_origin_of_not_blank (h : l.Keeps removed old) (hremoved : removed i = false) {line : String}
    (hline : old[i]? = some line) (hblank : isBlankLine line = false) : ∃ k, l.origin k = some i := by
  obtain ⟨tail, hkept, hend⟩ := h
  have hlt := (List.getElem?_eq_some_iff.mp hline).1
  have hmem : i ∈ l.before ++ l.after ++ tail := by
    rw [← hkept]
    simpa using ⟨hlt, hremoved⟩
  rcases List.mem_append.mp hmem with hmem | hmem
  · exact exists_origin_iff.mpr hmem
  · have := hend i hmem
    rw [hline, Option.getD_some, hblank] at this
    cases this

/-- A marker that is not removed is kept. -/
theorem Keeps.exists_origin (h : l.Keeps removed old) (hremoved : removed i = false)
    (hmark : Marker.start.stands old i = true ∨ Marker.stop.stands old i = true) : ∃ k, l.origin k = some i := by
  rcases hmark with hmark | hmark
  all_goals
    obtain ⟨line, hline, hmarks⟩ := Marker.stands_iff.mp hmark
    exact h.exists_origin_of_not_blank hremoved hline (isBlankLine_of_marks hmarks)

/-- Between kept lines all lines are kept that are not removed. -/
theorem Keeps.exists_origin_of_le (h : l.Keeps removed old) (hj : l.origin k = some j) (hle : i ≤ j) (hremoved : removed i = false) :
    ∃ k, l.origin k = some i := by
  have hlt := (h.of_origin hj).1
  obtain ⟨tail, hkept, -⟩ := h
  have hsorted := pairwise_kept removed old.length
  have hmem : i ∈ l.before ++ l.after ++ tail := by
    rw [← hkept]
    simpa using ⟨Nat.lt_of_le_of_lt hle hlt, hremoved⟩
  rcases List.mem_append.mp hmem with hmem | hmem
  · exact exists_origin_iff.mpr hmem
  · rw [hkept, List.pairwise_append] at hsorted
    have := hsorted.2.2 j (exists_origin_iff.mp ⟨k, hj⟩) i hmem
    omega

/-- The length of the new page. -/
theorem length_page (l : Layout) (old : List String) : (l.page old).length = l.before.length + l.added.length + l.after.length := by
  simp [page, Nat.add_assoc]

/-- A kept line is what it was. -/
theorem Keeps.getElem?_page (h : l.Keeps removed old) (hi : l.origin k = some i) : (l.page old)[k]? = old[i]? := by
  have hlt := (h.of_origin hi).1
  have hline : some (old[i]?.getD "") = old[i]? := by rw [List.getElem?_eq_getElem hlt, Option.getD_some]
  rw [page]
  rcases origin_eq_some.mp hi with hi | ⟨hk, hi⟩
  · have hlt' := (List.getElem?_eq_some_iff.mp hi).1
    rw [List.append_assoc, List.getElem?_append_left (by simpa using hlt'), List.getElem?_map, hi, Option.map_some, hline]
  · rw [List.getElem?_append_right (by simpa using hk)]
    simp only [List.length_append, List.length_map]
    rw [List.getElem?_map, hi, Option.map_some, hline]

/-- The added lines on the new page. -/
theorem getElem?_page_added (l : Layout) (old : List String) {d : Nat} (hd : d < l.added.length) :
    (l.page old)[l.before.length + d]? = l.added[d]? := by
  rw [page, List.getElem?_append_left (by simpa using hd), List.getElem?_append_right (by simp)]
  simp

/-- A line that comes from the old page is a marker on both pages or on neither. -/
theorem Keeps.stands_page (h : l.Keeps removed old) (hi : l.origin k = some i) (m : Marker) :
    m.stands (l.page old) k = m.stands old i := by
  rw [Marker.stands, h.getElem?_page hi, Marker.stands]

/-- No line of the old page stands twice on the new one. -/
theorem Keeps.eq_of_origin (h : l.Keeps removed old) (hi : l.origin k = some i) (hj : l.origin k' = some i) : k = k' := by
  rcases Nat.lt_trichotomy k k' with hlt | heq | hlt
  · exact absurd (h.lt hi hj hlt) (Nat.lt_irrefl i)
  · exact heq
  · exact absurd (h.lt hj hi hlt) (Nat.lt_irrefl i)

/-- A run of lines that are all kept, and among which none is added, is the run it was. -/
theorem Keeps.run (h : l.Keeps removed old) {a b : Nat} (ha : l.origin a = some i) (hb : l.origin b = some j)
    (hadded : ∀ k, a < k → k < b → l.origin k ≠ none) (hkept : ∀ m, i ≤ m → m ≤ j → removed m = false) (hle : i ≤ j) :
    b - a = j - i ∧ ∀ d ≤ b - a, l.origin (a + d) = some (i + d) := by
  have hrun : ∀ d ≤ j - i, l.origin (a + d) = some (i + d) := by
    intro d
    induction d with
    | zero => exact fun _ => ha
    | succ d ih =>
      intro hd
      have horigin := ih (by omega)
      obtain ⟨k, hk⟩ := h.exists_origin_of_le hb (show i + (d + 1) ≤ j by omega) (hkept _ (by omega) (by omega))
      have hlt : a + d < k := h.lt_of_origin_lt horigin hk (by omega)
      have hlast : k ≤ b := by
        by_contra hgt
        have := h.lt hb hk (by omega)
        omega
      -- A line between this one and the next kept one would have been between them before.
      have hnext : k = a + (d + 1) := by
        by_contra hne
        obtain ⟨m, hm⟩ := Option.ne_none_iff_exists'.mp (hadded (a + (d + 1)) (by omega) (by omega))
        have h₁ := h.lt horigin hm (by omega)
        have h₂ := h.lt hm hk (by omega)
        omega
      rwa [hnext] at hk
  have hend := hrun (j - i) (Nat.le_refl _)
  rw [show i + (j - i) = j by omega] at hend
  have hlength := h.eq_of_origin hend hb
  exact ⟨by omega, fun d hd => hrun d (by omega)⟩

/-! ## Added lines -/

/-- A line that comes from the old page is none of the added ones. -/
theorem not_added_of_origin (h : l.origin k = some i) : k < l.before.length ∨ l.before.length + l.added.length ≤ k :=
  (origin_eq_some.mp h).imp (fun h => (List.getElem?_eq_some_iff.mp h).1) And.left

/-- A line of the new page that comes from nowhere is added. -/
theorem exists_added (hk : k < (l.page old).length) (h : l.origin k = none) : ∃ d < l.added.length, k = l.before.length + d := by
  rw [length_page] at hk
  have hbefore : ¬k < l.before.length := by
    intro hlt
    rw [origin_of_lt hlt, List.getElem?_eq_getElem hlt] at h
    nomatch h
  have hadded : k < l.before.length + l.added.length := by
    by_contra hge
    rw [origin, if_neg hbefore, if_neg hge, List.getElem?_eq_getElem (by omega)] at h
    nomatch h
  exact ⟨k - l.before.length, by omega, by omega⟩

/-- The markers among the added lines, told by their place in the new page. -/
theorem stands_page_added (l : Layout) (old : List String) (m : Marker) {d : Nat} (hd : d < l.added.length) :
    m.stands (l.page old) (l.before.length + d) = m.stands l.added d := by
  rw [Marker.stands, getElem?_page_added l old hd, Marker.stands]

/-! ## Ways to lay out a page -/

/-- What dropping leaves, told by positions. -/
theorem dropLinesFrom_eq_map (removed : Nat → Bool) (pre ls post : List String) :
    dropLinesFrom removed pre.length ls =
      ((List.range' pre.length ls.length).filter fun i => !removed i).map fun i => (pre ++ ls ++ post)[i]?.getD "" := by
  induction ls generalizing pre with
  | nil => rfl
  | cons line ls ih =>
    have hrest := ih (pre ++ [line])
    rw [List.length_append, List.length_singleton, List.append_assoc pre [line] ls, List.singleton_append] at hrest
    rw [dropLinesFrom, List.length_cons, List.range'_succ, List.filter_cons, hrest]
    cases removed pre.length with
    | true => rfl
    | false =>
      simp only [Bool.false_eq_true, if_false, Bool.not_false, if_true, List.map_cons]
      rw [List.append_assoc, List.getElem?_append_right (Nat.le_refl _), Nat.sub_self, List.cons_append, List.getElem?_cons_zero,
        Option.getD_some]

/-- What is left of a page, told by positions. -/
theorem dropLines_eq_map (removed : Nat → Bool) (old : List String) :
    dropLines removed old = ((List.range old.length).filter fun i => !removed i).map fun i => old[i]?.getD "" := by
  have h := dropLinesFrom_eq_map removed [] old []
  rwa [List.length_nil, ← List.range_eq_range', List.nil_append, List.append_nil] at h

/-- Lines may be added after the last one of those that are kept. -/
theorem exists_layout {kept tail : List String} (h : dropLines removed old = kept ++ tail)
    (hblank : ∀ line ∈ tail, isBlankLine line = true) (added : List String) :
    ∃ l : Layout, l.page old = kept ++ added ∧ l.added = added ∧ l.after = [] ∧ l.Keeps removed old := by
  rw [dropLines_eq_map, List.map_eq_append_iff] at h
  obtain ⟨before, rest, hkept, rfl, rfl⟩ := h
  refine ⟨⟨before, added, []⟩, by simp [page], rfl, rfl, rest, by simpa using hkept, fun i hi => ?_⟩
  exact hblank _ (List.mem_map_of_mem hi)

/-- A page without some lines and the blank ones at its end, with lines added there, is laid out so. -/
theorem exists_layout_end (removed : Nat → Bool) (old added : List String) :
    ∃ l : Layout, l.page old = dropEndBlankLines (dropLines removed old) ++ added ∧ l.added = added ∧ l.after = [] ∧
      l.Keeps removed old := by
  obtain ⟨tail, htail, hblank⟩ := exists_dropEndBlankLines_append (dropLines removed old)
  exact exists_layout htail hblank added

/-- Lines may take the place of a line that is removed. -/
theorem exists_layout_replaceFrom {p : Nat} (hp : p < old.length) (hremoved : removed p = true) (added : List String) :
    ∃ l : Layout, l.page old = replaceFrom p removed added 0 old ∧ l.added = added ∧ (∀ i ∈ l.before, i < p) ∧ (∀ i ∈ l.after, p < i) ∧
      l.Keeps removed old := by
  obtain ⟨pre, line, post, rfl, rfl⟩ : ∃ pre line post, old = pre ++ line :: post ∧ pre.length = p :=
    ⟨old.take p, old[p], old.drop (p + 1), by simp, by simp; omega⟩
  have hpage := replaceFrom_eq removed added pre line post 0
  have hbefore := dropLinesFrom_eq_map removed [] pre (line :: post)
  have hafter := dropLinesFrom_eq_map removed (pre ++ [line]) post []
  rw [List.length_nil, List.nil_append] at hbefore
  rw [List.length_append, List.length_singleton, List.append_nil, List.append_assoc, List.singleton_append] at hafter
  rw [Nat.zero_add, hbefore, hafter] at hpage
  refine ⟨⟨(List.range' 0 pre.length).filter fun i => !removed i, added,
    (List.range' (pre.length + 1) post.length).filter fun i => !removed i⟩, hpage.symm, rfl, ?_, ?_, [], ?_, by simp⟩
  · intro i hi
    have := List.mem_range'_1.mp (List.mem_of_mem_filter hi)
    omega
  · intro i hi
    have := List.mem_range'_1.mp (List.mem_of_mem_filter hi)
    omega
  · have hrange : List.range' 0 pre.length ++ ([pre.length] ++ List.range' (pre.length + 1) post.length) =
        List.range' 0 (pre.length + (1 + post.length)) := by
      rw [← List.range'_append_1, ← List.range'_append_1, Nat.zero_add, List.range'_one]
    rw [List.append_nil, List.range_eq_range', List.length_append, List.length_cons, Nat.add_comm post.length 1, ← hrange,
      List.filter_append, List.filter_append, List.filter_cons_of_neg (by simp [hremoved]), List.filter_nil, List.nil_append]

end Layout

end UserScripts.Page
