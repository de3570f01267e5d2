import UserScripts.Proofs.Text.Lines
import UserScripts.Proofs.Value.Json
import UserScripts.Proofs.Wrapper.Marker
import UserScripts.Wrapper.Place

/-!
# Facts about the place of a wrapper

A rendered wrapper consists of lines, and it is put on a page as a whole: at the end, or in the place of the first wrapper. Main
statements: `isLine_of_mem_render`, `append_eq` and `replaceFrom_eq`.
-/

namespace UserScripts.Wrapper

open UserScripts.Text

/-! ## A wrapper consists of lines -/

/-- Lines that are put together are a line. -/
theorem isLine_append {a b : String} (ha : IsLine a) (hb : IsLine b) : IsLine (a ++ b) := by
  rw [IsLine, String.toList_append, List.mem_append, not_or]
  exact ⟨ha, hb⟩

/-- The notation of a text is a line. -/
theorem isLine_quote (s : String) : IsLine (Json.quote s) := by
  rw [IsLine, Json.quote_toList]
  simp only [List.mem_cons, List.mem_append, List.not_mem_nil, or_false, not_or]
  exact ⟨by decide, Json.newline_not_mem_quotedBody _, by decide⟩

/-- The notation of a number is a line. -/
theorem isLine_natRepr (n : Nat) : IsLine n.repr := by
  intro h
  rw [Nat.toList_repr] at h
  exact absurd (Nat.isDigit_of_mem_toDigits (by decide) (by decide) h) (by decide)

/-- The notation of an integer is a line. -/
theorem isLine_toString (i : Int) : IsLine (toString i) := by
  rw [Int.toString_eq_repr, Int.repr_eq_if]
  split
  · exact isLine_natRepr _
  · exact isLine_append (by decide) (isLine_natRepr _)

/-- Each line of an item is one line, whatever its key, its name and its call are. -/
theorem isLine_of_mem_itemLines {last : Bool} {i : Item} {l : String} (h : l ∈ itemLines last i) : IsLine l := by
  simp only [itemLines, List.mem_append, List.mem_cons, List.not_mem_nil, or_false] at h
  rcases h with ((rfl | rfl | rfl | rfl | rfl) | hl) | rfl | rfl | rfl
  · decide
  · decide
  · exact isLine_append (isLine_append (by decide) (isLine_quote _)) (by decide)
  · exact isLine_append (isLine_append (by decide) (isLine_quote _)) (by decide)
  · decide
  · exact isLine_of_mem_lines hl
  · decide
  · exact isLine_append (by decide) (by split <;> decide)
  · decide

/-- The items of a wrapper are written as lines. -/
theorem isLine_of_mem_listLines {items : List Item} {l : String} (h : l ∈ listLines items) : IsLine l := by
  induction items with
  | nil => nomatch h
  | cons i rest ih =>
    cases rest with
    | nil => exact isLine_of_mem_itemLines h
    | cons j rest =>
      rcases List.mem_append.mp h with h | h
      · exact isLine_of_mem_itemLines h
      · exact ih h

/-- The program of a wrapper consists of lines. -/
theorem isLine_of_mem_programLines : ∀ l ∈ programLines, IsLine l := by
  simp only [programLines, List.forall_mem_cons, List.not_mem_nil, false_implies, implies_true, and_true]
  and_intros
  -- The characters of each line are written out before they are looked at.
  all_goals (rw [IsLine, String.toList_ofList]; decide)

/-- Each line of a rendered wrapper is one line. -/
theorem isLine_of_mem_render {items : List Item} {delay : Int} {l : String} (h : l ∈ render items delay) : IsLine l := by
  simp only [render, tailLines, List.mem_append, List.mem_cons, List.not_mem_nil, or_false] at h
  rcases h with (h | h) | h | rfl | rfl | rfl
  · revert h; revert l; decide
  · exact isLine_of_mem_listLines h
  · exact isLine_of_mem_programLines l h
  · exact isLine_append (isLine_append (by decide) (isLine_toString delay)) (by decide)
  · decide
  · decide

/-! ## Where a wrapper is put -/

/-- The blank line between a page and the wrapper at its end. -/
def separator (kept : List String) : List String :=
  if kept.isEmpty then [] else [""]

/-- A separator is one blank line or nothing. -/
theorem separator_cases (kept : List String) : separator kept = [] ∨ separator kept = [""] := by
  unfold separator
  split
  · exact Or.inl rfl
  · exact Or.inr rfl

/-- A separator consists of lines. -/
theorem isLine_of_mem_separator {kept : List String} {l : String} (h : l ∈ separator kept) : IsLine l := by
  rcases separator_cases kept with hnone | hone
  · rw [hnone] at h
    cases h
  · rw [hone, List.mem_singleton] at h
    rw [h]
    decide

/-- A wrapper at the end of a page follows the last line that is not blank. -/
theorem append_eq {items : List Item} (h : items ≠ []) (ls : List String) (delay : Int) :
    append ls items delay = dropEndBlankLines ls ++ (separator (dropEndBlankLines ls) ++ render items delay) := by
  have hitems : items.isEmpty = false := by simpa using h
  simp only [append, hitems, separator, Bool.false_eq_true, if_false]
  cases hk : dropEndBlankLines ls with
  | nil => rfl
  | cons l kept => simp

theorem append_nil (ls : List String) (delay : Int) : append ls [] delay = dropEndBlankLines ls := rfl

/-- Something is left of a page that has a line that is not blank, whatever is appended. -/
theorem append_ne_nil {ls : List String} (h : dropEndBlankLines ls ≠ []) (items : List Item) (delay : Int) :
    append ls items delay ≠ [] := by
  by_cases hempty : items = []
  · rwa [hempty, append_nil]
  · rw [append_eq hempty]
    exact List.append_ne_nil_of_left_ne_nil h _

/-- A page with a wrapper at its end consists of lines. -/
theorem isLine_of_mem_append {ls : List String} (hls : ∀ l ∈ ls, IsLine l) {items : List Item} {delay : Int} {l : String}
    (h : l ∈ append ls items delay) : IsLine l := by
  by_cases hempty : items = []
  · rw [hempty, append_nil] at h
    exact hls l (mem_of_mem_dropEndBlankLines h)
  · rw [append_eq hempty, List.mem_append, List.mem_append] at h
    rcases h with h | h | h
    · exact hls l (mem_of_mem_dropEndBlankLines h)
    · exact isLine_of_mem_separator h
    · exact isLine_of_mem_render h

/-- A wrapper that takes the place of others stands where the first of them stood. -/
theorem replaceFrom_eq (drop : Nat → Bool) (new before : List String) (line : String) (after : List String) (i : Nat) :
    replaceFrom (i + before.length) drop new i (before ++ line :: after) =
      dropLinesFrom drop i before ++ new ++ dropLinesFrom drop (i + before.length + 1) after := by
  induction before generalizing i with
  | nil =>
    have hrest : ∀ (ls : List String) (j : Nat), i < j → replaceFrom i drop new j ls = dropLinesFrom drop j ls := by
      intro ls
      induction ls with
      | nil => intro j _; rfl
      | cons l ls ih =>
        intro j hj
        rw [replaceFrom, if_neg (by omega), dropLinesFrom, ih (j + 1) (by omega)]
    rw [List.nil_append, List.length_nil, Nat.add_zero, replaceFrom, if_pos rfl, hrest after (i + 1) (by omega)]
    rfl
  | cons l before ih =>
    have hstep := ih (i + 1)
    rw [Nat.add_right_comm] at hstep
    rw [List.cons_append, List.length_cons, ← Nat.add_assoc, replaceFrom, if_neg (by omega), hstep, dropLinesFrom]
    split <;> rfl

/-- A position inside the complete wrappers of a page is one of its lines. -/
theorem lt_length_of_blocks {ls : List String} {r : Range} (h : r ∈ blocks ls) : r.1 < r.2 ∧ r.2 < ls.length := by
  have hnone : ∀ f ∈ (none : Option Nat), f < 0 := by simp
  have := rangesFrom_bounds hnone h
  rwa [Nat.zero_add] at this

/-- The first line of a range is inside it. -/
theorem inside_first {r : Range} {rs : List Range} (h : r.1 ≤ r.2) : inside (r :: rs) r.1 = true := by
  simp [inside, Range.has, h]

end UserScripts.Wrapper
