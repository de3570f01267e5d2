import UserScripts.Proofs.Page.Change
import UserScripts.Proofs.Page.Match

/-!
# Lines that load a script

Whether a line loads a script is a matter of that line alone: it is a statement that loads the script, or it names the title of the
script in a load call. The lines of a script are found by either kind, but as soon as there is a statement, those of the other kind
are left aside. A page can count as loading a script that cannot be removed from it: a line of a wrapper loads it and no item does, or
the address of the script is malformed, so that it cannot be compared with the items. Main statements: `statementLines_eq`,
`titleLines_eq`, `plainLines_eq_nil`, `isInstalled_eq_ite`, `isInstalled_eq`, `removal_eq_error` and `removable_iff`.
-/

namespace UserScripts.Page

open UserScripts.Text

variable {ls : List String} {e : Entry} {s : Settings} {skip : Nat → Bool} {i : Nat}

/-- Whether a line is a statement that loads a script. -/
def byStatement (e : Entry) (s : Settings) (line : String) : Bool :=
  (Entry.ofLine? line e.target).any fun parsed => parsed.sameScript e s

/-- Whether a line that is no statement names a script of another wiki in a load call. -/
def byTitle (e : Entry) (line : String) : Bool :=
  match e.source with
  | .foreign _ page => loadsTitle page e.target line
  | _ => false

/-- Whether a line loads a script, in either way. -/
def loadsScript (e : Entry) (s : Settings) (line : String) : Bool :=
  byStatement e s line || byTitle e line

/-- The positions of the lines with some property, apart from those that satisfy `skip`. -/
def positionsOf (p : String → Bool) (skip : Nat → Bool) (ls : List String) : List Nat :=
  (ls.zipIdx.filter fun l => !skip l.2 && p l.1).map Prod.snd

/-! ## Positions -/

/-- A position is listed exactly if it is not skipped and its line has the property. -/
theorem mem_positionsOf {p : String → Bool} : i ∈ positionsOf p skip ls ↔ skip i = false ∧ ∃ line, ls[i]? = some line ∧ p line = true := by
  simp only [positionsOf, List.mem_map, List.mem_filter, Bool.and_eq_true, Bool.not_eq_true']
  constructor
  · rintro ⟨⟨line, j⟩, ⟨hmem, hskip, hp⟩, rfl⟩
    exact ⟨hskip, line, List.mem_zipIdx_iff_getElem?.mp hmem, hp⟩
  · rintro ⟨hskip, line, hline, hp⟩
    exact ⟨(line, i), ⟨List.mem_zipIdx_iff_getElem?.mpr hline, hskip, hp⟩, rfl⟩

/-- No position is listed exactly if no line that is not skipped has the property. -/
theorem positionsOf_eq_nil {p : String → Bool} :
    positionsOf p skip ls = [] ↔ ∀ i line, ls[i]? = some line → skip i = false → p line = false := by
  rw [List.eq_nil_iff_forall_not_mem]
  simp only [mem_positionsOf, not_and, not_exists, Bool.not_eq_true]
  exact ⟨fun h i line hline hskip => h i hskip line hline, fun h i hskip line hline => h i line hline hskip⟩

/-- The statements of a script are found line by line. -/
theorem statementLines_eq : statementLines ls e s skip = positionsOf (byStatement e s) skip ls := by
  have hfrom : ∀ start, ((Entry.ofLinesFrom e.target start ls).filter fun p => !skip p.1 && p.2.sameScript e s).map Prod.fst =
      ((ls.zipIdx start).filter fun l => !skip l.2 && byStatement e s l.1).map Prod.snd := by
    induction ls with
    | nil => exact fun _ => rfl
    | cons l ls ih =>
      intro start
      rw [Entry.ofLinesFrom, List.zipIdx_cons, List.filter_cons]
      split
      · next parsed hl =>
        have hline : byStatement e s l = parsed.sameScript e s := by rw [byStatement, hl]; rfl
        simp only [hline, List.filter_cons]
        split <;> simp [ih]
      · next hl =>
        have hline : byStatement e s l = false := by rw [byStatement, hl]; rfl
        simp [hline, ih]
  exact hfrom 0

/-- The lines that name the title of a script are found line by line. -/
theorem titleLines_eq : titleLines ls e skip = positionsOf (byTitle e) skip ls := by
  have hfrom : ∀ page start, titleLinesFrom page e.target skip start ls =
      ((ls.zipIdx start).filter fun l => !skip l.2 && loadsTitle page e.target l.1).map Prod.snd := by
    intro page
    induction ls with
    | nil => exact fun _ => rfl
    | cons l ls ih =>
      intro start
      rw [titleLinesFrom, List.zipIdx_cons, List.filter_cons]
      simp only
      split <;> simp [ih]
  cases hsource : e.source with
  | foreign wiki page =>
    simp only [titleLines, positionsOf, byTitle, hsource]
    exact hfrom page 0
  | own page => simp [titleLines, positionsOf, byTitle, hsource]
  | address url => simp [titleLines, positionsOf, byTitle, hsource]

/-- No line is found for a script if and only if none loads it. -/
theorem plainLines_eq_nil :
    plainLines ls e s skip = [] ↔ ∀ i line, ls[i]? = some line → skip i = false → loadsScript e s line = false := by
  have hboth : plainLines ls e s skip = [] ↔ statementLines ls e s skip = [] ∧ titleLines ls e skip = [] := by
    unfold plainLines
    split
    · next h => simp [h]
    · next h => simp [show statementLines ls e s skip ≠ [] from h]
  rw [hboth, statementLines_eq, titleLines_eq, positionsOf_eq_nil, positionsOf_eq_nil]
  simp only [loadsScript, Bool.or_eq_false_iff]
  exact ⟨fun h i line hline hskip => ⟨h.1 i line hline hskip, h.2 i line hline hskip⟩,
    fun h => ⟨fun i line hline hskip => (h i line hline hskip).1, fun i line hline hskip => (h i line hline hskip).2⟩⟩

/-! ## Pages -/

/-- With a load call of the entry it is known of every item whether it loads the script. -/
theorem loads_eq_holds {call : String} (hcall : e.loadCall s = .ok call) (item : Item) : item.loads e s = .ok (item.holds e s) := by
  unfold Item.holds Item.loads
  split
  · rfl
  · rw [hcall]
    rfl

/-- If every item of a list is known to load the script or not, it is known whether one of them does. -/
theorem anyLoads_eq {items : List Item} (h : ∀ item ∈ items, item.loads e s = .ok (item.holds e s)) :
    anyLoads e s items = .ok (items.any (·.holds e s)) := by
  induction items with
  | nil => rfl
  | cons item items ih =>
    rw [anyLoads, h item List.mem_cons_self, List.any_cons]
    cases item.holds e s with
    | true => rfl
    | false => exact ih fun other hother => h other (List.mem_cons_of_mem _ hother)

/-- If every item of a list is known to load the script or not, the list can be split. -/
theorem splitItems_eq {items : List Item} (h : ∀ item ∈ items, item.loads e s = .ok (item.holds e s)) :
    splitItems e s items = .ok (items.filter (·.holds e s), items.filter fun i => !i.holds e s) := by
  induction items with
  | nil => rfl
  | cons item items ih =>
    rw [splitItems, h item List.mem_cons_self, ih fun other hother => h other (List.mem_cons_of_mem _ hother)]
    cases hitem : item.holds e s <;> simp [hitem, bind, Except.bind, pure, Except.pure]

/-- A list of items that can be split holds none of which it is not known whether it loads the script. -/
theorem loads_of_splitItems {items : List Item} {parts : List Item × List Item} (h : splitItems e s items = .ok parts) :
    ∀ item ∈ items, item.loads e s = .ok (item.holds e s) := by
  induction items generalizing parts with
  | nil => exact List.forall_mem_nil _
  | cons first items ih =>
    rw [splitItems] at h
    cases hfirst : first.loads e s with
    | error fault =>
      rw [hfirst] at h
      cases h
    | ok here =>
      rw [hfirst] at h
      cases hrest : splitItems e s items with
      | error fault =>
        rw [hrest] at h
        cases h
      | ok parts' =>
        refine List.forall_mem_cons.mpr ⟨?_, ih hrest⟩
        rw [hfirst, Item.holds, hfirst]

/-- Whether an entry can be compared with the items of a page: it has a load call, or the keys of all of them are its own. -/
def Comparable (ls : List String) (e : Entry) (s : Settings) : Prop :=
  (∃ call, e.loadCall s = .ok call) ∨ ∀ item ∈ Wrapper.decode ls, item.hasKeyOf e = true

/-- An entry that has a load call can be compared with any items. -/
theorem Comparable.of_loadCall {call : String} (h : e.loadCall s = .ok call) : Comparable ls e s :=
  Or.inl ⟨call, h⟩

/-- Of every item of a page it is known whether it loads the script of an entry that can be compared with them. -/
theorem Comparable.loads (h : Comparable ls e s) : ∀ item ∈ Wrapper.decode ls, item.loads e s = .ok (item.holds e s) := by
  intro item hitem
  rcases h with ⟨call, hcall⟩ | hkeys
  · exact loads_eq_holds hcall item
  · simp [Item.holds, Item.loads, hkeys item hitem]

/-- A page counts as loading a script if one of its lines does, wherever it stands; else its items are asked. -/
theorem isInstalled_eq_ite (ls : List String) (e : Entry) (s : Settings) :
    isInstalled ls e s = if ls.any (loadsScript e s) then .ok true else anyLoads e s (Wrapper.decode ls) := by
  have hempty : (plainLines ls e s fun _ => false).isEmpty = !ls.any (loadsScript e s) := by
    rw [Bool.eq_iff_iff, List.isEmpty_iff, plainLines_eq_nil, Bool.not_eq_true', List.any_eq_false]
    refine ⟨fun h line hline => ?_, fun h i line hline _ => ?_⟩
    · obtain ⟨i, hi⟩ := List.mem_iff_getElem?.mp hline
      simp [h i line hi rfl]
    · simpa using h line (List.mem_of_getElem? hline)
  rw [isInstalled, hempty]
  cases ls.any (loadsScript e s) <;> rfl

/-- A page counts as loading a script if and only if one of its lines or one of its items does. -/
theorem isInstalled_eq (h : Comparable ls e s) :
    isInstalled ls e s = .ok (ls.any (loadsScript e s) || (Wrapper.decode ls).any (·.holds e s)) := by
  rw [isInstalled_eq_ite, anyLoads_eq h.loads]
  cases ls.any (loadsScript e s) <;> rfl

/-- A script cannot be removed if and only if no line outside the complete wrappers and no item loads it. -/
theorem removal_eq_error (h : Comparable ls e s) {failure : Failure} :
    removal ls e s = .error failure ↔
      failure = .notInstalled e.displayName e.target ∧ plainOf ls e s = [] ∧ (Wrapper.decode ls).any (·.holds e s) = false := by
  unfold removal
  rw [splitItems_eq h.loads, plainOf]
  simp only [Failure.ofUrl, Except.mapError, bind, Except.bind, isEmpty_filter_holds]
  cases (Wrapper.decode ls).any (·.holds e s) with
  | true => simp [pure, Except.pure]
  | false =>
    cases plainLines ls e s (Wrapper.inside (Wrapper.blocks ls)) with
    | nil => simp [throw, throwThe, MonadExceptOf.throw, eq_comm]
    | cons i found => simp [pure, Except.pure]

/-! ## Scripts that cannot be removed -/

/-- A line inside the wrappers of a page loads a script, but no line outside them and no item that is read from them does. -/
structure Buried (ls : List String) (e : Entry) (s : Settings) : Prop where
  outside : ∀ i line, ls[i]? = some line → Wrapper.inside (Wrapper.blocks ls) i = false → loadsScript e s line = false
  items : ∀ item ∈ Wrapper.decode ls, item.holds e s = false
  inside : ∃ i line, ls[i]? = some line ∧ Wrapper.inside (Wrapper.blocks ls) i = true ∧ loadsScript e s line = true

/-- A script is buried if and only if the page counts as loading it although nothing can be removed. -/
theorem buried_iff (hcomparable : Comparable ls e s) :
    Buried ls e s ↔ isInstalled ls e s = .ok true ∧ removal ls e s = .error (.notInstalled e.displayName e.target) := by
  rw [isInstalled_eq hcomparable, removal_eq_error hcomparable, plainOf, plainLines_eq_nil, List.any_eq_false]
  simp only [Bool.not_eq_true, true_and]
  constructor
  · rintro ⟨houtside, hitems, i, line, hline, -, hloads⟩
    have hany : ls.any (loadsScript e s) = true := List.any_eq_true.mpr ⟨line, List.mem_of_getElem? hline, hloads⟩
    exact ⟨by rw [hany, Bool.true_or], houtside, hitems⟩
  · rintro ⟨hinstalled, houtside, hitems⟩
    have hnone : (Wrapper.decode ls).any (·.holds e s) = false := List.any_eq_false.mpr fun item hitem => by simp [hitems item hitem]
    rw [hnone, Bool.or_false] at hinstalled
    obtain ⟨line, hline, hloads⟩ := List.any_eq_true.mp (Except.ok.inj hinstalled)
    obtain ⟨i, hi⟩ := List.mem_iff_getElem?.mp hline
    refine ⟨houtside, hitems, i, line, hi, ?_, hloads⟩
    by_contra hinside
    rw [houtside i line hi (by simpa using hinside)] at hloads
    exact Bool.false_ne_true hloads

/-- Whatever can be removed counts as loaded. -/
theorem isInstalled_of_removal (hcomparable : Comparable ls e s)
    (h : removal ls e s ≠ .error (.notInstalled e.displayName e.target)) : isInstalled ls e s = .ok true := by
  by_contra hnot
  rw [isInstalled_eq hcomparable] at hnot
  have hnone : ls.any (loadsScript e s) = false ∧ (Wrapper.decode ls).any (·.holds e s) = false := by
    rw [← Bool.or_eq_false_iff]
    simpa using hnot
  refine h ((removal_eq_error hcomparable).mpr ⟨rfl, ?_, hnone.2⟩)
  rw [plainOf, plainLines_eq_nil]
  intro i line hline _
  simpa using List.any_eq_false.mp hnone.1 line (List.mem_of_getElem? hline)

/-- A script can be removed only if it can be compared with the items of the page. -/
theorem Comparable.of_removal {r : Removal} (h : removal ls e s = .ok r) : Comparable ls e s := by
  unfold removal at h
  cases hsplit : splitItems e s (Wrapper.decode ls) with
  | error fault =>
    rw [hsplit] at h
    cases h
  | ok parts =>
    cases hcall : e.loadCall s with
    | ok call => exact .of_loadCall hcall
    | error fault =>
      refine Or.inr fun item hitem => ?_
      have hloads := loads_of_splitItems hsplit item hitem
      by_contra hkey
      rw [Item.loads, if_neg hkey, hcall] at hloads
      cases hloads

/-- A script that a page counts as loading can be removed if and only if it can be compared with the items of the page and is not
buried. -/
theorem removable_iff (found : isInstalled ls e s = .ok true) :
    (∃ r, removal ls e s = .ok r) ↔ Comparable ls e s ∧ ¬ Buried ls e s := by
  constructor
  · rintro ⟨r, hr⟩
    have hcomparable := Comparable.of_removal hr
    refine ⟨hcomparable, fun hburied => ?_⟩
    have hmissing := ((buried_iff hcomparable).mp hburied).2
    rw [hr] at hmissing
    cases hmissing
  · rintro ⟨hcomparable, hburied⟩
    cases hr : removal ls e s with
    | ok r => exact ⟨r, rfl⟩
    | error failure =>
      obtain ⟨rfl, -⟩ := (removal_eq_error hcomparable).mp hr
      exact absurd ((buried_iff hcomparable).mpr ⟨found, hr⟩) hburied

end UserScripts.Page
