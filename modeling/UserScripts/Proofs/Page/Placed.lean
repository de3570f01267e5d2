import UserScripts.Proofs.Page.Rewritten

/-!
# Statements in their places

The statements outside the wrappers of a page, position by position. New lines for them, one for each in their order, each take the
place of their statement, and every other line stays. Main statements: `mem_plainEntries`, `setLines_plainEntries` and `covers_set`.
-/

namespace UserScripts

open UserScripts.Text

namespace Page

variable {target : String} {ls : List String} {i : Nat} {line : String}

/-- The entries that are read from a page are those of its lines, with their positions. -/
theorem mem_ofLinesFrom {start : Nat} {p : Nat × Entry} : p ∈ Entry.ofLinesFrom target start ls ↔
    ∃ j line, ls[j]? = some line ∧ p.1 = start + j ∧ Entry.ofLine? line target = some p.2 := by
  induction ls generalizing start with
  | nil => simp [Entry.ofLinesFrom]
  | cons l ls ih =>
    have hsplit : (∃ j line, (l :: ls)[j]? = some line ∧ p.1 = start + j ∧ Entry.ofLine? line target = some p.2) ↔
        (p.1 = start ∧ Entry.ofLine? l target = some p.2) ∨ p ∈ Entry.ofLinesFrom target (start + 1) ls := by
      rw [ih]
      constructor
      · rintro ⟨j, line, hj, hp, he⟩
        cases j with
        | zero =>
          obtain rfl : l = line := by simpa using hj
          exact Or.inl ⟨hp, he⟩
        | succ j => exact Or.inr ⟨j, line, by simpa using hj, by omega, he⟩
      · rintro (⟨hp, he⟩ | ⟨j, line, hj, hp, he⟩)
        · exact ⟨0, l, rfl, hp, he⟩
        · exact ⟨j + 1, line, by simpa using hj, by omega, he⟩
    rw [hsplit, Entry.ofLinesFrom]
    cases he : Entry.ofLine? l target with
    | none => simp
    | some e =>
      rw [List.mem_cons]
      refine or_congr_left ⟨?_, ?_⟩
      · rintro rfl
        exact ⟨rfl, rfl⟩
      · rintro ⟨hp, he⟩
        exact Prod.ext hp (Option.some.inj he).symm

/-- The statements outside the wrappers of a page. -/
theorem mem_plainEntries {e : Entry} : (i, e) ∈ plainEntries ls target ↔
    Wrapper.covers ls i = false ∧ ∃ line, ls[i]? = some line ∧ Entry.ofLine? line target = some e := by
  rw [plainEntries, List.mem_filter, Entry.ofLines, mem_ofLinesFrom, and_comm]
  refine and_congr (by simp [Wrapper.covers]) ⟨?_, ?_⟩
  · rintro ⟨j, line, hline, hi, he⟩
    obtain rfl : i = j := hi.trans (Nat.zero_add j)
    exact ⟨line, hline, he⟩
  · rintro ⟨line, hline, he⟩
    exact ⟨i, line, hline, (Nat.zero_add i).symm, he⟩

/-- The entries are read in the order of the lines. -/
theorem pairwise_ofLinesFrom (target : String) (start : Nat) (ls : List String) :
    (Entry.ofLinesFrom target start ls).Pairwise fun p q => p.1 < q.1 := by
  induction ls generalizing start with
  | nil => exact .nil
  | cons l ls ih =>
    rw [Entry.ofLinesFrom]
    split
    · refine .cons (fun q hq => ?_) (ih _)
      obtain ⟨j, -, -, hj, -⟩ := mem_ofLinesFrom.mp hq
      simp only
      omega
    · exact ih _

/-- No two statements of a page stand in one place. -/
theorem nodup_plainEntries (ls : List String) (target : String) : ((plainEntries ls target).map Prod.fst).Nodup := by
  rw [List.Nodup, List.pairwise_map]
  exact ((pairwise_ofLinesFrom target 0 ls).sublist List.filter_sublist).imp fun h => Nat.ne_of_lt h

/-! ## New lines -/

/-- In a table of positions of their own, each position finds what belongs to it. -/
theorem lookup_zip {α : Type} {R : Nat × α → String → Prop} {ps : List (Nat × α)} {new : List String} {p : Nat × α}
    (h : List.Forall₂ R ps new) (distinct : (ps.map Prod.fst).Nodup) (hp : p ∈ ps) :
    ∃ text, ((ps.map Prod.fst).zip new).lookup p.1 = some text ∧ R p text := by
  induction h with
  | nil => exact absurd hp List.not_mem_nil
  | @cons q text ps new hq _ ih =>
    rw [List.map_cons, List.nodup_cons] at distinct
    rw [List.map_cons, List.zip_cons_cons, List.lookup_cons]
    rcases List.mem_cons.mp hp with rfl | hp
    · exact ⟨text, by simp, hq⟩
    · have hne : (p.1 == q.1) = false := beq_eq_false_iff_ne.mpr fun heq => distinct.1 (heq ▸ List.mem_map_of_mem hp)
      rw [hne]
      exact ih distinct.2 hp

/-- The lines of a page after some of them have been set. -/
theorem getElem?_setLines (ls : List String) (table : List (Nat × String)) (i : Nat) :
    (setLines ls table)[i]? = ls[i]?.map fun l => (table.lookup i).getD l := by
  rw [setLines, List.getElem?_mapIdx]

/-- New lines for the statements of a page, one for each, take their places. -/
theorem setLines_plainEntries {R : Nat × Entry → String → Prop} {new : List String}
    (h : List.Forall₂ R (plainEntries ls target) new) (hline : ls[i]? = some line) :
    (Wrapper.covers ls i = true ∨ Entry.ofLine? line target = none →
        (setLines ls (((plainEntries ls target).map Prod.fst).zip new))[i]? = some line) ∧
      ∀ e, Wrapper.covers ls i = false → Entry.ofLine? line target = some e →
        ∃ text, R (i, e) text ∧ (setLines ls (((plainEntries ls target).map Prod.fst).zip new))[i]? = some text := by
  rw [getElem?_setLines, hline, Option.map_some]
  constructor
  · intro hkept
    cases hlookup : (((plainEntries ls target).map Prod.fst).zip new).lookup i with
    | none => rfl
    | some text =>
      exfalso
      obtain ⟨⟨j, e⟩, he, rfl⟩ := List.mem_map.mp (mem_of_lookup_zip hlookup).1
      obtain ⟨houtside, line', hline', hstatement⟩ := mem_plainEntries.mp he
      obtain rfl := Option.some.inj (hline.symm.trans hline')
      exact not_kept houtside hstatement hkept
  · intro e houtside hstatement
    obtain ⟨text, hlookup, htext⟩ := lookup_zip h (nodup_plainEntries ls target) (mem_plainEntries.mpr ⟨houtside, line, hline, hstatement⟩)
    exact ⟨text, htext, by rw [hlookup]; rfl⟩

/-- Setting lines leaves their number. -/
theorem length_setLines (ls : List String) (table : List (Nat × String)) : (setLines ls table).length = ls.length :=
  List.length_mapIdx

/-! ## Another statement in the place of one -/

/-- Setting a line that is no marker to another one that is none leaves the ranges. -/
theorem rangesFrom_set {opens closes : Wrapper.Marker} {line' : String} {start : Nat} (isOpen : Option Nat) (hline : ls[i]? = some line)
    (tame : Wrapper.Tame line) (tame' : Wrapper.Tame line') :
    Wrapper.rangesFrom opens closes start isOpen (ls.set i line') = Wrapper.rangesFrom opens closes start isOpen ls := by
  induction ls generalizing i start isOpen with
  | nil => nomatch hline
  | cons l ls ih =>
    cases i with
    | zero =>
      obtain rfl : l = line := by simpa using hline
      rw [List.set_cons_zero, Wrapper.rangesFrom_cons, Wrapper.rangesFrom_cons, tame.marks, tame.marks, tame'.marks, tame'.marks]
    | succ i =>
      have hrest (isOpen : Option Nat) : Wrapper.rangesFrom opens closes (start + 1) isOpen (ls.set i line') =
          Wrapper.rangesFrom opens closes (start + 1) isOpen ls := ih isOpen (by simpa using hline)
      rw [List.set_cons_succ, Wrapper.rangesFrom_cons, Wrapper.rangesFrom_cons, hrest, hrest, hrest]

/-- A statement in the place of another one leaves the wrappers of the page as they are. -/
theorem covers_set {line' : String} (hline : ls[i]? = some line) (tame : Wrapper.Tame line) (tame' : Wrapper.Tame line') :
    Wrapper.covers (ls.set i line') = Wrapper.covers ls := by
  funext j
  rw [Wrapper.covers, Wrapper.covers, Wrapper.blocks, Wrapper.blocks, rangesFrom_set none hline tame tame']

end Page

end UserScripts
