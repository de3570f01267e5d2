import UserScripts.Proofs.Wrapper.Origin

/-!
# Pages in two parts

Of the items with one signature the first one is kept, and nothing is lost but the others and the items without a signature. So items
may be gone through part by part, and so may a page, wherever no wrapper lies on both sides of the cut: the scan for wrappers starts
anew there. Main statements: `keepsFirsts_dedupe`, `dedupe_dedupe_append`, `blockLines_append` and `only_duplicates_are_lost`.
-/

namespace UserScripts

open UserScripts.Text

/-! ## Items, each once -/

namespace Item

variable {seen seen' : List String} {items before : List Item} {i : Item}

/-- What is kept of items if each signature is kept once, where it comes first. -/
structure KeepsFirsts (items kept : List Item) : Prop where
  sublist : kept.Sublist items
  distinct : Distinct kept
  /-- No signature is lost. The item that has it first is kept, after what is kept of the items before it and before what is kept of
  those after it. -/
  first : ∀ i ∈ items, i.signature ≠ "" → ∃ before j after keptBefore keptAfter,
    (items = before ++ j :: after ∧ j.signature = i.signature ∧ ∀ k ∈ before, k.signature ≠ i.signature) ∧
      kept = keptBefore ++ j :: keptAfter ∧ keptBefore.Sublist before ∧ keptAfter.Sublist after

/-- Some item has a signature first. -/
theorem exists_first (h : i ∈ items) : ∃ before j after,
    items = before ++ j :: after ∧ j.signature = i.signature ∧ ∀ k ∈ before, k.signature ≠ i.signature := by
  have hfind : (items.find? (·.signature = i.signature)).isSome := List.find?_isSome.mpr ⟨i, h, by simp⟩
  obtain ⟨j, hj⟩ := Option.isSome_iff_exists.mp hfind
  obtain ⟨hsame, before, after, hitems, hbefore⟩ := List.find?_eq_some_iff_append.mp hj
  exact ⟨before, j, after, hitems, by simpa using hsame, fun k hk => by simpa using hbefore k hk⟩

/-- An item that has its signature first is kept, whatever comes before and after it. -/
theorem dedupe_append_cons (hsigned : i.signature ≠ "") (hfirst : ∀ j ∈ before, j.signature ≠ i.signature) (after : List Item) :
    ∃ seen, dedupe (before ++ i :: after) = dedupe before ++ i :: dedupeFrom seen after := by
  have hnew : ¬(decide (i.signature = "") || (before.map signature ++ []).contains i.signature) = true := by
    simpa [hsigned] using hfirst
  rw [dedupe, dedupeFrom_append, dedupeFrom, if_neg hnew]
  exact ⟨_, rfl⟩

/-- Of each signature the first item is kept. -/
theorem keepsFirsts_dedupe (items : List Item) : KeepsFirsts items (dedupe items) where
  sublist := dedupeFrom_sublist [] items
  distinct := distinct_dedupe items
  first i hi hsigned := by
    obtain ⟨before, j, after, rfl, hsame, hbefore⟩ := exists_first hi
    obtain ⟨seen, hkept⟩ := dedupe_append_cons (hsame ▸ hsigned) (hsame ▸ hbefore) after
    exact ⟨before, j, after, dedupe before, dedupeFrom seen after, ⟨rfl, hsame, hbefore⟩, hkept, dedupeFrom_sublist [] before,
      dedupeFrom_sublist seen after⟩

/-- No signature is lost. -/
theorem mem_signatures_dedupe {text : String} (h : text ≠ "") :
    text ∈ (dedupe items).map signature ↔ text ∈ items.map signature := by
  constructor
  · exact fun hmem => ((keepsFirsts_dedupe items).sublist.map signature).subset hmem
  · intro hmem
    obtain ⟨i, hi, rfl⟩ := List.mem_map.mp hmem
    obtain ⟨_, j, _, _, _, ⟨-, hsame, -⟩, hkept, -⟩ := (keepsFirsts_dedupe items).first i hi h
    exact List.mem_map.mpr ⟨j, by rw [hkept]; simp, hsame⟩

/-- Going through the items again changes nothing if the signatures of the first time are among those of the second. -/
theorem dedupeFrom_dedupeFrom (h : seen' ⊆ seen) : dedupeFrom seen (dedupeFrom seen' items) = dedupeFrom seen items := by
  induction items generalizing seen seen' with
  | nil => rfl
  | cons j items ih =>
    by_cases hgone : j.signature = "" ∨ j.signature ∈ seen'
    · have hgone' : j.signature = "" ∨ j.signature ∈ seen := hgone.imp_right (h ·)
      rw [dedupeFrom, if_pos (by simpa using hgone), ih h, dedupeFrom, if_pos (by simpa using hgone')]
    · -- The first time the item is kept; the second time it may be one that has been seen.
      rw [dedupeFrom, if_neg (by simpa using hgone), dedupeFrom, dedupeFrom]
      split
      · next hgone' =>
        have hseen : j.signature ∈ seen := by
          simp only [Bool.or_eq_true, decide_eq_true_eq, List.contains_iff_mem] at hgone'
          exact hgone'.resolve_left fun hempty => hgone (Or.inl hempty)
        exact ih (List.cons_subset.mpr ⟨hseen, h⟩)
      · rw [ih (List.cons_subset_cons _ h)]

/-- The later items may be gone through on their own before. -/
theorem dedupe_append_dedupe (xs ys : List Item) : dedupe (xs ++ dedupe ys) = dedupe (xs ++ ys) := by
  rw [dedupe, dedupeFrom_append, dedupe, dedupeFrom_dedupeFrom (List.nil_subset _), ← dedupeFrom_append, dedupe]

/-- The earlier items may be gone through on their own before. -/
theorem dedupe_dedupe_append (xs ys : List Item) : dedupe (dedupe xs ++ ys) = dedupe (xs ++ ys) := by
  have hseen : ∀ text, text ≠ "" → (text ∈ (dedupe xs).map signature ++ [] ↔ text ∈ xs.map signature ++ []) := by
    intro text htext
    rw [List.append_nil, List.append_nil, mem_signatures_dedupe htext]
  rw [dedupe, dedupeFrom_append, dedupeFrom_congr hseen, dedupe, dedupeFrom_dedupeFrom (List.nil_subset _), ← dedupeFrom_append, dedupe]

end Item

/-! ## Wrappers on both sides of a cut -/

namespace Wrapper

variable {opens closes : Marker} {a b : List String} {i : Nat} {isOpen : Option Nat}

/-- The run that is open after some lines begins before their end. -/
theorem openAfter_lt (hopen : ∀ f ∈ isOpen, f < i) : ∀ f ∈ openAfter opens closes i isOpen a, f < i + a.length := by
  induction a generalizing i isOpen with
  | nil => exact hopen
  | cons l a ih =>
    rw [openAfter, List.length_cons, show i + (a.length + 1) = i + 1 + a.length by omega]
    split
    · exact ih (by simp)
    · split
      · exact ih (by simp)
      · exact ih fun f hf => Nat.lt_succ_of_lt (hopen f hf)

/-- A run that is not closed does not count. -/
theorem rangesFrom_of_not_closes (h : ∀ k, ¬Closes opens closes b k) :
    rangesFrom opens closes i isOpen b = rangesFrom opens closes i none b := by
  induction b generalizing i isOpen with
  | nil => rfl
  | cons l b ih =>
    rw [rangesFrom_cons, rangesFrom_cons]
    by_cases hopens : opens.marks l = true
    · rw [if_pos hopens, if_pos hopens]
    · have hcloses : closes.marks l = false :=
        Bool.eq_false_iff.mpr fun hcloses => h 0 (closes_cons_zero.mpr ⟨hcloses, (Bool.not_eq_true _).mp hopens⟩)
      have hrest : ∀ k, ¬Closes opens closes b k :=
        fun k hk => h (k + 1) (closes_cons_succ.mpr ⟨⟨(Bool.not_eq_true _).mp hopens, hcloses⟩, hk⟩)
      simp only [hopens, hcloses, Bool.and_false, Bool.false_eq_true, if_false]
      exact ih hrest

/-- Whether a page can be cut in two: no wrapper of it lies on both sides of the cut. -/
def CutApart (a b : List String) : Prop :=
  ∀ r ∈ blocks (a ++ b), r.2 < a.length ∨ a.length ≤ r.1

instance (a b : List String) : Decidable (CutApart a b) :=
  inferInstanceAs (Decidable (∀ r ∈ blocks (a ++ b), _))

/-- Whether no start marker is left open: every one has an end marker somewhere after it. -/
def Finished (a : List String) : Prop :=
  ∀ i < a.length, Marker.start.stands a i = true → ∃ l ∈ a.drop (i + 1), Marker.stop.marks l = true

instance (a : List String) : Decidable (Finished a) :=
  inferInstanceAs (Decidable (∀ i < a.length, _))

/-- Lines that leave no start marker open can be cut off, whatever follows them. -/
theorem Finished.cutApart (h : Finished a) (b : List String) : CutApart a b := by
  intro r hr
  obtain ⟨-, hfirst, -, hbetween⟩ := mem_blocks.mp hr
  by_contra hcut
  obtain ⟨hlast, hstart⟩ : a.length ≤ r.2 ∧ r.1 < a.length := by simpa [not_or] using hcut
  rw [Marker.stands_append_left _ _ hstart] at hfirst
  obtain ⟨l, hl, hmarks⟩ := h r.1 hstart hfirst
  obtain ⟨k, hk⟩ := List.mem_iff_getElem?.mp hl
  have hstop : Marker.stop.stands a (r.1 + 1 + k) = true := by
    rw [← Marker.stands_drop]
    exact Marker.stands_iff.mpr ⟨l, hk, hmarks⟩
  have hlt := lt_length_of_stands hstop
  have hnone := (hbetween (r.1 + 1 + k) (by omega) (by omega)).2
  rw [Marker.stands_append_left _ _ hlt, hstop] at hnone
  cases hnone

/-- The scan starts anew at a cut that no wrapper lies across. -/
theorem blocks_append (h : CutApart a b) : blocks (a ++ b) = blocks a ++ rangesFrom .start .stop a.length none b := by
  have hsplit := rangesFrom_append_openAfter .start .stop 0 none a b
  rw [Nat.zero_add] at hsplit
  cases hopen : openAfter .start .stop 0 none a with
  | none => rw [blocks, hsplit, hopen, ← blocks]
  | some f =>
    have hf : f < a.length := by simpa using openAfter_lt (by simp) f hopen
    rw [hopen] at hsplit
    rw [blocks, hsplit, ← blocks, rangesFrom_of_not_closes]
    -- If the second part closed the run that the first one leaves open, that wrapper would lie across the cut.
    intro k hk
    have hrange : (f, a.length + k) ∈ rangesFrom .start .stop a.length (some f) b :=
      mem_rangesFrom.mpr (Or.inl ⟨f, rfl, k, hk, rfl⟩)
    have hcut := h (f, a.length + k) (by rw [blocks, hsplit]; exact List.mem_append_right _ hrange)
    simp only at hcut
    omega

/-- The wrappers of the whole page are those of the two parts. -/
theorem blockLines_append (h : CutApart a b) : blockLines (a ++ b) = blockLines a ++ blockLines b := by
  have hfirst := @map_linesOf_rangesFrom .start .stop [] a b none (by simp)
  have hsecond := @map_linesOf_rangesFrom .start .stop a b [] none (by simp)
  rw [List.nil_append] at hfirst
  rw [List.append_nil] at hsecond
  rw [← map_linesOf_blocks, blocks_append h, List.map_append, hsecond]
  exact congrArg (· ++ _) hfirst

/-- Going through items loses nothing but duplicates. What is kept is a part of the items in their order, with signatures that are
not empty and differ from one another, and every signature among the items is kept where it comes first. It makes no difference
whether some of the items have been gone through before. So the items of a page in two parts are those of the first part and those of
the second one, each once, wherever no wrapper lies across the cut, as is the case if no start marker before it is left open. -/
theorem only_duplicates_are_lost (xs ys : List Item) (a b : List String) :
    Item.KeepsFirsts xs (Item.dedupe xs) ∧
      Item.dedupe (Item.dedupe xs ++ ys) = Item.dedupe (xs ++ ys) ∧
      (Finished a → CutApart a b) ∧
      (CutApart a b → decode (a ++ b) = Item.dedupe (decode a ++ decode b)) := by
  refine ⟨Item.keepsFirsts_dedupe xs, Item.dedupe_dedupe_append xs ys, fun h => h.cutApart b, fun h => ?_⟩
  calc decode (a ++ b)
    _ = Item.dedupe ((blockLines a).flatMap itemsIn ++ (blockLines b).flatMap itemsIn) := by
      rw [decode_eq, blockLines_append h, List.flatMap_append]
    _ = Item.dedupe (decode a ++ decode b) := by
      rw [decode_eq a, decode_eq b, Item.dedupe_append_dedupe, Item.dedupe_dedupe_append]

/-- The second wrapper holds the item of the first one under another call, and an item without a key that is new. -/
theorem only_duplicates_are_lost_second_wrapper :
    let a := ["importScript('User:Foo.js');", "// SM-CAPTURE-START", "key: \"a\",", "mw.loader.load('/a');", "// SM-CAPTURE-END"]
    let b := ["", "// SM-CAPTURE-START", "// SM-CAPTURE-ITEM-START", "key: \" a \",", "mw.loader.load('/other');",
      "// SM-CAPTURE-ITEM-END", "// SM-CAPTURE-ITEM-START", "mw.loader.load( '/b' );", "// SM-CAPTURE-ITEM-END", "// SM-CAPTURE-END"]
    Finished a ∧ CutApart a b ∧
      decode (a ++ b) = [{ key := "a", call := "mw.loader.load('/a');" }, { call := "mw.loader.load( '/b' );" }] := by
  intro a b
  have hfinished : Finished a := by decide
  obtain ⟨-, -, hcut, hdecode⟩ := only_duplicates_are_lost (decode a) (decode b) a b
  refine ⟨hfinished, hcut hfinished, ?_⟩
  rw [hdecode (hcut hfinished)]
  decide

end Wrapper

end UserScripts
