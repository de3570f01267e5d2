import UserScripts.Proofs.Wrapper.Exact
import UserScripts.Proofs.Wrapper.Place
import UserScripts.Proofs.Wrapper.RoundTrip

/-!
# Pages without a complete wrapper

A page may hold markers and still no wrapper: no end marker follows a start marker. Taking lines off such a page completes no wrapper.
A wrapper that is written at the end of a page comes to those that are there, since its start marker gives up a run that is still open.
Main statements: `blocks_eq_nil_iff`, `blocks_of_sublist`, `blocks_append_render` and `blocks_after`.
-/

namespace UserScripts.Wrapper

open UserScripts.Text

variable {ls more : List String} {i : Nat} {isOpen : Option Nat}

/-- No wrapper is complete exactly if no end marker follows a start marker, be it one of the lines or the one of the open run. -/
theorem rangesFrom_eq_nil_iff : rangesFrom .start .stop i isOpen ls = [] ↔
    (isOpen.isSome = true → ∀ l ∈ ls, Marker.stop.marks l = false) ∧
      ls.Pairwise fun a b => Marker.start.marks a = true → Marker.stop.marks b = false := by
  induction ls generalizing i isOpen with
  | nil => simp [rangesFrom]
  | cons l ls ih =>
    rw [rangesFrom_cons, List.pairwise_cons, List.forall_mem_cons]
    by_cases hstart : Marker.start.marks l = true
    · -- the line opens a run for the others, and it is no end marker itself
      have hstop : Marker.stop.marks l = false :=
        Bool.eq_false_iff.mpr fun hstop => by rw [start_marks_of_stop_marks hstop] at hstart; cases hstart
      simp only [hstart, if_true, ih, hstop, Option.isSome_some, forall_const, true_and]
      exact ⟨fun h => ⟨fun _ => h.1, h⟩, fun h => h.2⟩
    · by_cases hclosing : isOpen.isSome = true ∧ Marker.stop.marks l = true
      · -- the line closes the open run, so there is a wrapper
        simp [hstart, hclosing.1, hclosing.2]
      · have hopen : isOpen.isSome = true → Marker.stop.marks l = false := fun hsome =>
          Bool.eq_false_iff.mpr fun hstop => hclosing ⟨hsome, hstop⟩
        rw [if_neg hstart, if_neg (by simpa using hclosing), ih]
        exact ⟨fun h => ⟨fun hsome => ⟨hopen hsome, h.1 hsome⟩, fun _ _ hmarks => absurd hmarks hstart, h.2⟩,
          fun h => ⟨fun hsome => (h.1 hsome).2, h.2.2⟩⟩

/-- A page has no complete wrapper exactly if no end marker comes after a start marker. -/
theorem blocks_eq_nil_iff : blocks ls = [] ↔ ls.Pairwise fun a b => Marker.start.marks a = true → Marker.stop.marks b = false := by
  rw [blocks, rangesFrom_eq_nil_iff]
  simp

/-- Taking lines off a page without a wrapper completes none. -/
theorem blocks_of_sublist (hsub : ls.Sublist more) (h : blocks more = []) : blocks ls = [] :=
  blocks_eq_nil_iff.mpr ((blocks_eq_nil_iff.mp h).sublist hsub)

/-- Lines at the end that are no markers make no difference. -/
theorem rangesFrom_append_of_unmarked (hmore : Unmarked more) :
    rangesFrom .start .stop i isOpen (ls ++ more) = rangesFrom .start .stop i isOpen ls := by
  rw [rangesFrom_append_openAfter, rangesFrom_of_no_marker hmore, List.append_nil]

/-- Lines without markers at the end add no wrapper. -/
theorem blocks_append_of_unmarked (ls : List String) (hmore : Unmarked more) : blocks (ls ++ more) = blocks ls :=
  rangesFrom_append_of_unmarked hmore

/-- A line that does not come to a marker word is without markers. -/
theorem unmarked_of_tame {line : String} (h : Tame line) : Unmarked [line] := by
  intro l hl
  rw [List.mem_singleton.mp hl]
  exact ⟨h.marks _, h.marks _⟩

/-- Lines without markers are so one after the other. -/
theorem unmarked_append {a b : List String} (ha : Unmarked a) (hb : Unmarked b) : Unmarked (a ++ b) :=
  fun line hline => (List.mem_append.mp hline).elim (ha line) (hb line)

/-- A separator is without markers. -/
theorem unmarked_separator (kept : List String) : Unmarked (separator kept) := by
  rcases separator_cases kept with h | h
  · rw [h]
    exact List.forall_mem_nil _
  · rw [h]
    exact unmarked_of_tame (by decide)

/-- A start marker gives up the run that is open. -/
theorem rangesFrom_append_start {opens closes : Marker} {first : String} (hfirst : opens.marks first = true) :
    rangesFrom opens closes i isOpen (ls ++ first :: more) =
      rangesFrom opens closes i isOpen ls ++ rangesFrom opens closes (i + ls.length) none (first :: more) := by
  rw [rangesFrom_append_openAfter, rangesFrom_cons, rangesFrom_cons, if_pos hfirst, if_pos hfirst]

section

variable {items : List Item} (storable : ∀ i ∈ items, i.Storable)

include storable

/-- A wrapper at the end of a page comes to those that are there. -/
theorem blocks_append_render (ls : List String) (delay : Int) :
    blocks (ls ++ render items delay) = blocks ls ++ [(ls.length, ls.length + (render items delay).length - 1)] := by
  have hstart : Marker.start.marks Marker.start.line = true := by decide
  have hstop : Marker.start.marks Marker.stop.line = false ∧ Marker.stop.marks Marker.stop.line = true := by decide
  rw [render_eq, blocks, rangesFrom_append_start hstart, ← blocks,
    rangesFrom_block hstart (fun l hl => not_block_of_mem_body storable hl) hstop]
  simp [rangesFrom]
  omega

/-- It lies over no line that was there, and over all lines that are added. -/
theorem covers_append_render (ls : List String) (delay : Int) (k : Nat) : covers (ls ++ render items delay) k = true ↔
    covers ls k = true ∨ ls.length ≤ k ∧ k < ls.length + (render items delay).length := by
  have hrender : 0 < (render items delay).length := List.length_pos_iff.mpr (render_ne_nil items delay)
  rw [covers_iff, covers_iff, blocks_append_render storable]
  simp only [List.mem_append, List.mem_singleton, or_and_right, exists_or, exists_eq_left]
  refine or_congr_right ⟨fun h => ⟨h.1, ?_⟩, fun h => ⟨h.1, ?_⟩⟩
  · omega
  · omega

variable (h : blocks ls = []) (delay : Int)

include h

/-- A wrapper at the end of a page without one is its only one. -/
theorem blocks_after : blocks (ls ++ render items delay) = [(ls.length, ls.length + (render items delay).length - 1)] := by
  rw [blocks_append_render storable, h, List.nil_append]

omit storable h in
/-- The lines of the wrapper at the end of a page are those that have been rendered. -/
theorem linesOf_after : linesOf (ls ++ render items delay) (ls.length, ls.length + (render items delay).length - 1) =
    render items delay := by
  rw [← List.append_nil (ls ++ _), linesOf_append _ _ _ (render_ne_nil items delay)]

/-- The items of the wrapper are the items of the page. -/
theorem decode_after : decode (ls ++ render items delay) = Item.dedupe ((items.filter Item.hasCall).map Item.stored) := by
  have hitems := itemsOf_rendered storable delay ls []
  rw [List.append_nil] at hitems
  rw [decode, blocks_after storable h, List.flatMap_singleton, hitems]

/-- Taking the wrapper off leaves the page before it. -/
theorem dropLines_after : dropLines (inside (blocks (ls ++ render items delay))) (ls ++ render items delay) = ls := by
  have hrender : 0 < (render items delay).length := List.length_pos_iff.mpr (render_ne_nil items delay)
  rw [blocks_after storable h, dropLines, dropLinesFrom_append, dropLinesFrom_eq_self, dropLinesFrom_eq_nil, List.append_nil]
  · intro j hle hlt
    simp [inside, Range.has]
    omega
  · intro j _ hlt
    simp [inside, Range.has]
    omega

end

end UserScripts.Wrapper
