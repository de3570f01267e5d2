import UserScripts.Proofs.Text.Lines
import UserScripts.Proofs.Wrapper.Marker
import UserScripts.Wrapper.Item

/-!
# What the wrappers of a page hold

The items of a page depend on nothing but the lines of its complete wrappers. So they stay the same when lines outside the wrappers
are dropped, and without a start marker a page has no items. Main statements: `decode_eq`, `blockLines_dropLines` and
`decode_of_no_start`.
-/

namespace UserScripts.Wrapper

open UserScripts.Text

variable {opens closes : Marker}

/-- The lines of the complete runs between two markers; `run` holds the lines of a run that is open. -/
def runsFrom (opens closes : Marker) (run : Option (List String)) : List String → List (List String)
  | [] => []
  | line :: rest =>
    if opens.marks line then runsFrom opens closes (some [line]) rest
    else if run.isSome && closes.marks line then (run.getD [] ++ [line]) :: runsFrom opens closes none rest
    else runsFrom opens closes (run.map (· ++ [line])) rest

/-- The lines of the complete wrappers of a page, one list for each wrapper. -/
def blockLines (ls : List String) : List (List String) :=
  runsFrom .start .stop none ls

/-- The item on the lines of a run. -/
def readRun (run : List String) : Option Item :=
  match readFields { call := "" } run with
  | .ok item => if item.call = "" then none else some item
  | .error _ => none

/-- The items on the lines of a wrapper. -/
def itemsIn (block : List String) : List Item :=
  match (runsFrom .itemStart .itemStop none block).filterMap readRun with
  | [] => [block].filterMap readRun
  | items => items

/-! ## Lines for positions -/

/-- The lines of a range that begins before a block and ends with it. -/
theorem linesOf_append_append (pre block post : List String) {f i : Nat} (hf : f ≤ pre.length)
    (hi : pre.length + block.length = i + 1) : linesOf (pre ++ block ++ post) (f, i) = pre.drop f ++ block := by
  have hlen : i + 1 - f = (pre.drop f ++ block).length := by
    rw [List.length_append, List.length_drop]
    omega
  rw [linesOf, List.append_assoc, List.drop_append_of_le_length hf, ← List.append_assoc, hlen, List.take_left]

/-- The positions of the complete runs lead to their lines. -/
theorem map_linesOf_rangesFrom (pre ls post : List String) (isOpen : Option Nat) (hopen : ∀ f ∈ isOpen, f ≤ pre.length) :
    (rangesFrom opens closes pre.length isOpen ls).map (linesOf (pre ++ ls ++ post)) =
      runsFrom opens closes (isOpen.map fun f => pre.drop f) ls := by
  induction ls generalizing pre isOpen with
  | nil => rfl
  | cons l ls ih =>
    have hnext : pre ++ l :: ls ++ post = (pre ++ [l]) ++ ls ++ post := by simp
    have hlen : pre.length + 1 = (pre ++ [l]).length := by simp
    have hdrop : ∀ f ∈ isOpen, (pre ++ [l]).drop f = pre.drop f ++ [l] := fun f hf => List.drop_append_of_le_length (hopen f hf)
    rw [rangesFrom_cons, runsFrom, Option.isSome_map, hnext, hlen]
    split
    · rw [ih (pre ++ [l]) _ (by simp)]
      simp
    · split
      · next hcloses =>
        obtain ⟨f, rfl⟩ := Option.isSome_iff_exists.mp (Bool.and_eq_true_iff.mp hcloses).1
        have hline := linesOf_append_append pre [l] (ls ++ post) (hopen f rfl) (Nat.add_right_cancel_iff.mpr rfl)
        rw [List.map_cons, ih (pre ++ [l]) _ (by simp), List.append_assoc _ ls post]
        exact congrArg (· :: _) hline
      · rw [ih (pre ++ [l]) _ fun f hf => by simpa using Nat.le_succ_of_le (hopen f hf), Option.map_map]
        exact congrArg (runsFrom opens closes · ls) (Option.map_congr hdrop)

/-- The complete wrappers, as lines, are those that a run over the page finds. -/
theorem map_linesOf_blocks (ls : List String) : (blocks ls).map (linesOf ls) = blockLines ls := by
  have h := @map_linesOf_rangesFrom .start .stop [] ls [] none (by simp)
  rwa [List.nil_append, List.append_nil] at h

/-! ## Items -/

/-- The item on the lines of a range is that on the run of them. -/
theorem toOption_itemOf (ls : List String) (r : Range) : (itemOf ls r).toOption = readRun (linesOf ls r) := by
  rw [itemOf, readRun]
  cases readFields { call := "" } (linesOf ls r) with
  | error defect => rfl
  | ok item =>
    simp only [bind, Except.bind]
    split <;> rfl

/-- The items of a wrapper depend on nothing but its lines. -/
theorem itemsOf_eq {ls : List String} {r : Range} (h : r ∈ blocks ls) : itemsOf ls r = itemsIn (linesOf ls r) := by
  have hbounds := rangesFrom_bounds (by simp) h
  have hread : ∀ ranges : List Range, readItems ls ranges = (ranges.map (linesOf ls)).filterMap readRun := by
    intro ranges
    rw [readItems, List.filterMap_map]
    exact List.filterMap_congr fun r _ => toOption_itemOf ls r
  have hlen : (ls.take r.1).length = r.1 := by
    rw [List.length_take]
    omega
  have hsplit : ls.take r.1 ++ linesOf ls r ++ ls.drop (r.2 + 1) = ls := by
    rw [linesOf, List.append_assoc, show ls.drop (r.2 + 1) = (ls.drop r.1).drop (r.2 + 1 - r.1) by rw [List.drop_drop]; congr 1; omega,
      List.take_append_drop, List.take_append_drop]
  have hranges := @map_linesOf_rangesFrom .itemStart .itemStop (ls.take r.1) (linesOf ls r) (ls.drop (r.2 + 1)) none (by simp)
  rw [hlen, hsplit, Option.map_none] at hranges
  rw [itemsOf, itemsIn, hread, itemRanges, hranges, hread]
  rfl

/-- The items of a page depend on nothing but the lines of its wrappers. -/
theorem decode_eq (ls : List String) : decode ls = Item.dedupe ((blockLines ls).flatMap itemsIn) := by
  rw [decode, ← map_linesOf_blocks, List.flatMap_map]
  exact congrArg Item.dedupe (List.flatMap_congr fun r hr => itemsOf_eq hr)

/-! ## Dropping lines -/

/-- Whether a run that is open before these lines is complete. -/
def finishes (opens closes : Marker) : List String → Bool
  | [] => false
  | line :: rest => !opens.marks line && (closes.marks line || finishes opens closes rest)

/-- The lines of an open run belong to it if it is complete. -/
theorem inside_of_finishes {i f j : Nat} {ls : List String} (h : finishes opens closes ls = true) (hf : f ≤ j) (hj : j ≤ i) :
    inside (rangesFrom opens closes i (some f) ls) j = true := by
  have hrange : ∃ c, i ≤ c ∧ (f, c) ∈ rangesFrom opens closes i (some f) ls := by
    clear hj
    induction ls generalizing i with
    | nil => cases h
    | cons l ls ih =>
      obtain ⟨hopens, hrest⟩ := Bool.and_eq_true_iff.mp h
      rw [rangesFrom_cons, if_neg (by simpa using hopens)]
      split
      · exact ⟨i, Nat.le_refl i, List.mem_cons_self⟩
      · next hcloses =>
        have hcloses : closes.marks l = false := by simpa using hcloses
        rw [hcloses, Bool.false_or] at hrest
        obtain ⟨c, hc, hmem⟩ := @ih (i + 1) hrest
        exact ⟨c, by omega, hmem⟩
  obtain ⟨c, hc, hmem⟩ := hrange
  exact List.any_eq_true.mpr ⟨(f, c), hmem, by simp [Range.has, hf, hj.trans hc]⟩

/-- What is inside a range is inside one of more. -/
theorem inside_cons_of_inside {ranges : List Range} {r : Range} {j : Nat} (h : inside ranges j = true) :
    inside (r :: ranges) j = true := by
  rw [inside, List.any_cons, show ranges.any (Range.has · j) = true from h, Bool.or_true]

/-- A run that is not complete does not matter. -/
theorem runsFrom_congr {run other : Option (List String)} {ls : List String} (h : finishes opens closes ls = true → run = other) :
    runsFrom opens closes run ls = runsFrom opens closes other ls := by
  induction ls generalizing run other with
  | nil => rfl
  | cons l ls ih =>
    rw [runsFrom, runsFrom]
    by_cases hopens : opens.marks l = true
    · rw [if_pos hopens, if_pos hopens]
    · have hstep : finishes opens closes (l :: ls) = (closes.marks l || finishes opens closes ls) := by
        simp [finishes, hopens]
      rw [hstep] at h
      rw [if_neg hopens, if_neg hopens]
      cases hcloses : closes.marks l with
      | true => rw [h (by rw [hcloses, Bool.true_or])]
      | false =>
        rw [Bool.and_false, Bool.and_false]
        exact ih fun hfinishes => by rw [h (by rw [hfinishes, Bool.or_true])]

/-- A run that is complete when lines outside the complete runs have been dropped was complete before. -/
theorem finishes_of_dropLinesFrom {drop : Nat → Bool} {i : Nat} {isOpen : Option Nat} {ls : List String}
    (hdrop : ∀ j, inside (rangesFrom opens closes i isOpen ls) j = true → drop j = false)
    (h : finishes opens closes (dropLinesFrom drop i ls) = true) : finishes opens closes ls = true := by
  induction ls generalizing i isOpen with
  | nil => exact h
  | cons l ls ih =>
    rw [rangesFrom_cons] at hdrop
    rw [dropLinesFrom] at h
    rw [finishes]
    by_cases hopens : opens.marks l = true
    · -- A run starts here. Kept, the marker cuts the open run off, and it is not dropped if its own run is complete.
      rw [if_pos hopens] at hdrop
      split at h
      · next hgone =>
        rw [hdrop i (inside_of_finishes (ih hdrop h) (Nat.le_refl i) (Nat.le_succ i))] at hgone
        cases hgone
      · simp [finishes, hopens] at h
    · cases hcloses : closes.marks l with
      | true => simp [hopens]
      | false =>
        rw [if_neg hopens, hcloses, Bool.and_false, if_neg Bool.false_ne_true] at hdrop
        have hrest : finishes opens closes (dropLinesFrom drop (i + 1) ls) = true := by
          split at h
          · exact h
          · simpa [finishes, hopens, hcloses] using h
        simp [hopens, ih hdrop hrest]

/-- The complete runs stay the same when lines outside of them are dropped. -/
theorem runsFrom_dropLinesFrom {drop : Nat → Bool} {i : Nat} {isOpen : Option Nat} {run : Option (List String)} {ls : List String}
    (hopen : ∀ f ∈ isOpen, f < i) (hrun : run.isSome = isOpen.isSome)
    (hdrop : ∀ j, inside (rangesFrom opens closes i isOpen ls) j = true → drop j = false) :
    runsFrom opens closes run (dropLinesFrom drop i ls) = runsFrom opens closes run ls := by
  induction ls generalizing i isOpen run with
  | nil => rfl
  | cons l ls ih =>
    rw [rangesFrom_cons] at hdrop
    rw [dropLinesFrom, runsFrom]
    by_cases hopens : opens.marks l = true
    · rw [if_pos hopens] at hdrop ⊢
      rw [← ih (by simp) rfl hdrop]
      split
      · next hgone =>
        refine runsFrom_congr fun hfinishes => ?_
        rw [hdrop i (inside_of_finishes (finishes_of_dropLinesFrom hdrop hfinishes) (Nat.le_refl i) (Nat.le_succ i))] at hgone
        cases hgone
      · rw [runsFrom, if_pos hopens]
    · rw [if_neg hopens, hrun]
      rw [if_neg hopens] at hdrop
      by_cases hend : (isOpen.isSome && closes.marks l) = true
      · -- The run is complete here, so the line is kept.
        obtain ⟨f, rfl⟩ := Option.isSome_iff_exists.mp (Bool.and_eq_true_iff.mp hend).1
        rw [if_pos hend] at hdrop ⊢
        have hline : drop i = false := hdrop i (by simp [inside, Range.has, (hopen f rfl).le])
        rw [hline, if_neg Bool.false_ne_true, runsFrom, if_neg hopens, hrun, if_pos hend]
        exact congrArg _ (@ih (i + 1) none none (by simp) rfl fun j hj => hdrop j (inside_cons_of_inside hj))
      · rw [if_neg hend] at hdrop ⊢
        have hnext : ∀ f ∈ isOpen, f < i + 1 := fun f hf => Nat.lt_succ_of_lt (hopen f hf)
        rw [← ih hnext (by rw [Option.isSome_map, hrun]) hdrop]
        split
        · next hgone =>
          refine runsFrom_congr fun hfinishes => ?_
          cases isOpen with
          | none =>
            obtain rfl : run = none := by simpa using hrun
            rfl
          | some f =>
            have hcomplete := finishes_of_dropLinesFrom hdrop hfinishes
            rw [hdrop i (inside_of_finishes hcomplete (hopen f rfl).le (Nat.le_succ i))] at hgone
            cases hgone
        · rw [runsFrom, if_neg hopens, hrun, if_neg hend]

/-- A page has the same wrappers after lines outside of them have been dropped. -/
theorem blockLines_dropLines {drop : Nat → Bool} {ls : List String} (h : ∀ i, inside (blocks ls) i = true → drop i = false) :
    blockLines (dropLines drop ls) = blockLines ls :=
  runsFrom_dropLinesFrom (by simp) rfl h

/-- Dropping lines outside the wrappers of a page leaves its items as they are. -/
theorem decode_dropLines {drop : Nat → Bool} {ls : List String} (h : ∀ i, inside (blocks ls) i = true → drop i = false) :
    decode (dropLines drop ls) = decode ls := by
  rw [decode_eq, blockLines_dropLines h, decode_eq]

/-! ## Start markers -/

/-- Lines without a start marker are passed by as long as no run is open. -/
theorem runsFrom_append_of_no_start {ls : List String} (h : ∀ l ∈ ls, opens.marks l = false) (more : List String) :
    runsFrom opens closes none (ls ++ more) = runsFrom opens closes none more := by
  induction ls with
  | nil => rfl
  | cons l ls ih =>
    rw [List.cons_append, runsFrom, if_neg (by simp [h l List.mem_cons_self])]
    exact ih fun m hm => h m (List.mem_cons_of_mem _ hm)

/-- Without a start marker a page has no items. -/
theorem decode_of_no_start {ls : List String} (h : ∀ l ∈ ls, Marker.start.marks l = false) : decode ls = [] := by
  have hruns := @runsFrom_append_of_no_start .start .stop ls h []
  rw [List.append_nil] at hruns
  rw [decode_eq, blockLines, hruns]
  rfl

/-- Where no marker is stray, an open run is complete. -/
theorem finishes_of_strayFrom {i f : Nat} {ls : List String} (h : strayFrom opens closes i (some f) ls = []) :
    finishes opens closes ls = true := by
  induction ls generalizing i with
  | nil => cases h
  | cons l ls ih =>
    rw [strayFrom] at h
    rw [finishes]
    split at h
    · cases h
    · next hopens =>
      split at h
      · next hcloses => simp_all
      · simp [hopens, ih h]

/-- Unless some start marker is never closed, all of them stand in complete runs. -/
theorem inside_of_marks {i j : Nat} {isOpen : Option Nat} {ls : List String} {l : String}
    (h : strayFrom opens closes i isOpen ls = []) (hl : ls[j]? = some l) (hmarks : opens.marks l = true) :
    inside (rangesFrom opens closes i isOpen ls) (i + j) = true := by
  induction ls generalizing i j isOpen with
  | nil => cases hl
  | cons m ls ih =>
    rw [strayFrom] at h
    rw [rangesFrom_cons]
    cases j with
    | zero =>
      obtain rfl : m = l := Option.some.inj hl
      rw [if_pos hmarks] at h ⊢
      exact inside_of_finishes (finishes_of_strayFrom (List.append_eq_nil_iff.mp h).2) (Nat.le_refl i) (Nat.le_succ i)
    | succ j =>
      rw [show i + (j + 1) = i + 1 + j by omega]
      split at h
      · next hopens =>
        rw [if_pos hopens]
        exact ih (List.append_eq_nil_iff.mp h).2 hl
      · next hopens =>
        rw [if_neg hopens]
        split at h
        · next hend =>
          rw [if_pos hend]
          exact inside_cons_of_inside (ih h hl)
        · next hend =>
          rw [if_neg hend]
          exact ih h hl

end UserScripts.Wrapper
