import Mathlib.Data.List.DropRight
import UserScripts.Text.Lines

/-!
# Facts about lines

Lines and texts are two views of a page: splitting undoes joining, the blank lines at the end are all that `dropEndBlankLines`
takes away, and dropping lines by position keeps the others in their order. Main statements: `lines_unlines`,
`exists_dropEndBlankLines_append` and `dropLinesFrom_append`.
-/

namespace UserScripts.Text

/-! ## Splitting and joining -/

/-- A text without the mark is one part. -/
theorem splitOn_of_not_mem {mark : Char} {s : List Char} (h : mark ∉ s) : splitOn mark s = [s] := by
  induction s with
  | nil => rfl
  | cons c s ih =>
    simp only [List.mem_cons, not_or] at h
    rw [splitOn, if_neg (Ne.symm h.1), ih h.2]

/-- The first piece of a text ends at the first mark. -/
theorem splitOn_append_cons {mark : Char} {s : List Char} (h : mark ∉ s) (t : List Char) :
    splitOn mark (s ++ mark :: t) = s :: splitOn mark t := by
  induction s with
  | nil => rw [List.nil_append, splitOn, if_pos rfl]
  | cons c s ih =>
    simp only [List.mem_cons, not_or] at h
    rw [List.cons_append, splitOn, if_neg (Ne.symm h.1), ih h.2]

/-- No piece of a text holds the mark. -/
theorem not_mem_of_mem_splitOn {mark : Char} {s piece : List Char} (h : piece ∈ splitOn mark s) : mark ∉ piece := by
  induction s generalizing piece with
  | nil =>
    rw [splitOn, List.mem_singleton] at h
    subst h
    simp
  | cons c s ih =>
    rw [splitOn] at h
    split at h
    · rcases List.mem_cons.mp h with rfl | h
      · simp
      · exact ih h
    · next hc =>
      split at h
      · next hs => exact absurd hs (splitOn_ne_nil mark s)
      · next l ls hs =>
        rw [hs] at ih
        rcases List.mem_cons.mp h with rfl | h
        · simp only [List.mem_cons, not_or]
          exact ⟨Ne.symm hc, ih List.mem_cons_self⟩
        · exact ih (List.mem_cons_of_mem _ h)

/-- Every piece of a text stands in it. -/
theorem infix_of_mem_splitOn {mark : Char} {s piece : List Char} (h : piece ∈ splitOn mark s) : piece <:+: s := by
  have hpart : ∀ pieces : List (List Char), piece ∈ pieces → piece <:+: joinWith mark pieces := by
    intro pieces
    induction pieces with
    | nil => intro hp; nomatch hp
    | cons p more ih =>
      intro hp
      cases more with
      | nil =>
        rw [List.mem_singleton.mp hp]
        exact List.infix_refl _
      | cons q more =>
        rcases List.mem_cons.mp hp with rfl | hp
        · exact (List.prefix_append _ _).isInfix
        · exact ((ih hp).trans (List.suffix_cons _ _).isInfix).trans (List.suffix_append _ _).isInfix
  have hin := hpart _ h
  rwa [joinWith_splitOn] at hin

/-- Splitting undoes joining of pieces that do not hold the mark. -/
theorem splitOn_joinWith {mark : Char} {pieces : List (List Char)} (hne : pieces ≠ []) (h : ∀ p ∈ pieces, mark ∉ p) :
    splitOn mark (joinWith mark pieces) = pieces := by
  induction pieces with
  | nil => exact absurd rfl hne
  | cons p more ih =>
    have hp : mark ∉ p := h p List.mem_cons_self
    cases more with
    | nil => exact splitOn_of_not_mem hp
    | cons q more =>
      rw [joinWith, splitOn_append_cons hp, ih (by simp) fun r hr => h r (List.mem_cons_of_mem _ hr)]

/-- A text that is one line. -/
def IsLine (l : String) : Prop :=
  '\n' ∉ l.toList

instance (l : String) : Decidable (IsLine l) :=
  inferInstanceAs (Decidable ('\n' ∉ l.toList))

/-- The lines of a text are lines. -/
theorem isLine_of_mem_lines {text l : String} (h : l ∈ lines text) : IsLine l := by
  obtain ⟨piece, hp, rfl⟩ := List.mem_map.mp h
  rw [IsLine, String.toList_ofList]
  exact not_mem_of_mem_splitOn hp

/-- A text has a line. -/
theorem lines_ne_nil (text : String) : lines text ≠ [] := by
  simp [lines, splitOn_ne_nil]

/-- Splitting a page into lines undoes joining them. -/
theorem lines_unlines {ls : List String} (hne : ls ≠ []) (h : ∀ l ∈ ls, IsLine l) : lines (unlines ls) = ls := by
  have hs : splitOn '\n' (joinWith '\n' (ls.map String.toList)) = ls.map String.toList := by
    refine splitOn_joinWith (by simpa using hne) ?_
    intro p hp
    obtain ⟨l, hl, rfl⟩ := List.mem_map.mp hp
    exact h l hl
  simp [lines, unlines, hs, List.map_map, Function.comp_def]

@[simp]
theorem unlines_nil : unlines [] = "" := rfl

/-- A single line is its own text. -/
@[simp]
theorem unlines_singleton (l : String) : unlines [l] = l := by
  simp [unlines, joinWith]

/-- Lines are joined by line feeds. -/
theorem unlines_cons_cons (l m : String) (ls : List String) : unlines (l :: m :: ls) = l ++ "\n" ++ unlines (m :: ls) := by
  apply String.toList_injective
  simp [unlines, joinWith]

/-- Joining two runs of lines puts one line feed between them. -/
theorem unlines_append {a b : List String} (ha : a ≠ []) (hb : b ≠ []) :
    unlines (a ++ b) = unlines a ++ "\n" ++ unlines b := by
  induction a with
  | nil => exact absurd rfl ha
  | cons l a ih =>
    cases a with
    | nil =>
      obtain ⟨m, b, rfl⟩ := List.exists_cons_of_ne_nil hb
      rw [List.singleton_append, unlines_cons_cons, unlines_singleton]
    | cons m a =>
      rw [List.cons_append, List.cons_append, unlines_cons_cons, unlines_cons_cons, ← List.cons_append, ih (by simp)]
      simp [String.append_assoc]

/-- What is counted in a text without its line feeds is counted line by line. -/
theorem countP_unlines_append {p : Char → Bool} (hp : p '\n' = false) (a b : List String) :
    (unlines (a ++ b)).toList.countP p = (unlines a).toList.countP p + (unlines b).toList.countP p := by
  by_cases ha : a = []
  · subst ha
    simp
  by_cases hb : b = []
  · subst hb
    simp
  have hfeed : "\n".toList.countP p = 0 := by
    simp [hp]
  rw [unlines_append ha hb, String.toList_append, String.toList_append, List.countP_append, List.countP_append, hfeed,
    Nat.add_zero]

/-! ## Blank lines at the end -/

theorem dropEndBlankLines_eq (ls : List String) : dropEndBlankLines ls = ls.rdropWhile isBlankLine := rfl

/-- All that is taken off the end of a page is blank lines. -/
theorem exists_dropEndBlankLines_append (ls : List String) :
    ∃ tail, ls = dropEndBlankLines ls ++ tail ∧ ∀ l ∈ tail, isBlankLine l = true :=
  ⟨ls.rtakeWhile isBlankLine, List.rdropWhile_append_rtakeWhile.symm, fun _ hl => List.mem_rtakeWhile_imp hl⟩

/-- A line that is left was there before. -/
theorem mem_of_mem_dropEndBlankLines {ls : List String} {l : String} (h : l ∈ dropEndBlankLines ls) : l ∈ ls :=
  (List.rdropWhile_prefix isBlankLine ls).subset h

/-- Nothing is taken off a page whose last line is not blank. -/
theorem dropEndBlankLines_concat {ls : List String} {l : String} (h : isBlankLine l = false) :
    dropEndBlankLines (ls ++ [l]) = ls ++ [l] :=
  List.rdropWhile_concat_neg _ _ _ (by simp [h])

/-- Blank lines at the end are dropped once. -/
theorem dropEndBlankLines_idem (ls : List String) : dropEndBlankLines (dropEndBlankLines ls) = dropEndBlankLines ls :=
  List.rdropWhile_idempotent isBlankLine ls

/-- Blank lines are not taken off from beyond a line that is not blank. -/
theorem dropEndBlankLines_append {ls : List String} {l : String} (h : isBlankLine l = false) (more : List String) :
    dropEndBlankLines (ls ++ [l] ++ more) = ls ++ [l] ++ dropEndBlankLines more := by
  induction more using List.reverseRecOn with
  | nil => rw [List.append_nil, dropEndBlankLines_concat h]; exact (List.append_nil _).symm
  | append_singleton more m ih =>
    by_cases hm : isBlankLine m = true
    · rw [← List.append_assoc, dropEndBlankLines_eq, List.rdropWhile_concat_pos _ _ _ hm, ← dropEndBlankLines_eq, ih,
        dropEndBlankLines_eq (more ++ [m]), List.rdropWhile_concat_pos _ _ _ hm, ← dropEndBlankLines_eq]
    · rw [Bool.not_eq_true] at hm
      rw [← List.append_assoc, dropEndBlankLines_concat hm, dropEndBlankLines_concat hm, List.append_assoc]

/-! ## Dropping lines by position -/

/-- Lines in two parts are dropped part by part. -/
theorem dropLinesFrom_append (drop : Nat → Bool) (i : Nat) (a b : List String) :
    dropLinesFrom drop i (a ++ b) = dropLinesFrom drop i a ++ dropLinesFrom drop (i + a.length) b := by
  induction a generalizing i with
  | nil => rfl
  | cons l a ih =>
    simp only [List.cons_append, dropLinesFrom, ih, List.length_cons, Nat.add_right_comm i 1, ← Nat.add_assoc]
    split <;> rfl

/-- The lines that are left are in their order. -/
theorem dropLinesFrom_sublist (drop : Nat → Bool) (i : Nat) (ls : List String) : (dropLinesFrom drop i ls).Sublist ls := by
  induction ls generalizing i with
  | nil => exact List.Sublist.refl _
  | cons l ls ih =>
    rw [dropLinesFrom]
    split
    · exact (ih _).cons _
    · exact (ih _).cons_cons _

/-- A line that is not dropped was there before. -/
theorem mem_of_mem_dropLinesFrom {drop : Nat → Bool} {i : Nat} {ls : List String} {l : String}
    (h : l ∈ dropLinesFrom drop i ls) : l ∈ ls :=
  (dropLinesFrom_sublist drop i ls).subset h

/-- Only the positions of the lines that are there matter. -/
theorem dropLinesFrom_congr {drop drop' : Nat → Bool} {i : Nat} {ls : List String}
    (h : ∀ j, i ≤ j → j < i + ls.length → drop j = drop' j) : dropLinesFrom drop i ls = dropLinesFrom drop' i ls := by
  induction ls generalizing i with
  | nil => rfl
  | cons l ls ih =>
    have hi : drop i = drop' i := h i (Nat.le_refl i) (by simp)
    have hrest : dropLinesFrom drop (i + 1) ls = dropLinesFrom drop' (i + 1) ls :=
      ih fun j hj hj' => h j (by omega) (by simp only [List.length_cons]; omega)
    rw [dropLinesFrom, dropLinesFrom, hi, hrest]

/-- Nothing may be dropped. -/
theorem dropLinesFrom_none (i : Nat) (ls : List String) : dropLinesFrom (fun _ => false) i ls = ls := by
  induction ls generalizing i with
  | nil => rfl
  | cons l ls ih => rw [dropLinesFrom, ih]; rfl

/-- Everything may be dropped. -/
theorem dropLinesFrom_all (i : Nat) (ls : List String) : dropLinesFrom (fun _ => true) i ls = [] := by
  induction ls generalizing i with
  | nil => rfl
  | cons l ls ih => rw [dropLinesFrom, ih]; rfl

/-- Lines of which no position is dropped stay. -/
theorem dropLinesFrom_eq_self {drop : Nat → Bool} {i : Nat} {ls : List String}
    (h : ∀ j, i ≤ j → j < i + ls.length → drop j = false) : dropLinesFrom drop i ls = ls :=
  (dropLinesFrom_congr h).trans (dropLinesFrom_none i ls)

/-- Lines of which every position is dropped go. -/
theorem dropLinesFrom_eq_nil {drop : Nat → Bool} {i : Nat} {ls : List String}
    (h : ∀ j, i ≤ j → j < i + ls.length → drop j = true) : dropLinesFrom drop i ls = [] :=
  (dropLinesFrom_congr h).trans (dropLinesFrom_all i ls)

end UserScripts.Text
