import UserScripts.Proofs.Page.Layout

/-!
# Wrappers of a changed page

Removing lines brings markers next to each other that were apart. That goes wrong exactly if a start marker and an end marker that are
kept have had markers between them and none of those is kept: then lines of the user get into a wrapper. Otherwise every wrapper of the
new page is the one that has been written or one that was there. Main statement: `Layout.apart_iff`.
-/

namespace UserScripts.Page

open UserScripts.Text UserScripts.Wrapper

/-- A start marker and an end marker are kept, there are markers between them, and each of those is removed. No wrapper is written
between them at the given place. -/
def Joins (removed : Nat → Bool) (place : Option Nat) (old : List String) : Prop :=
  ∃ i j, i < j ∧ removed i = false ∧ removed j = false ∧
    Marker.start.stands old i = true ∧ Marker.stop.stands old j = true ∧
    (∃ k, i < k ∧ k < j ∧ (Marker.start.stands old k = true ∨ Marker.stop.stands old k = true)) ∧
    (∀ k, i < k → k < j → Marker.start.stands old k = true ∨ Marker.stop.stands old k = true → removed k = true) ∧
    ∀ p ∈ place, ¬(i < p ∧ p < j)

namespace Layout

/-- Every complete wrapper of the new page either is added as a whole, as it is rendered for some items, or consists of the lines of a
complete wrapper of the old page. No line of the old page lies inside a wrapper that lay outside all wrappers. -/
structure Apart (l : Layout) (delay : Int) (old : List String) : Prop where
  wrappers : ∀ r ∈ blocks (l.page old),
    ((∀ k, r.1 ≤ k → k ≤ r.2 → l.origin k = none) ∧ ∃ items, linesOf (l.page old) r = render items delay) ∨
      ∃ r' ∈ blocks old, r.2 - r.1 = r'.2 - r'.1 ∧ ∀ d ≤ r.2 - r.1, l.origin (r.1 + d) = some (r'.1 + d)
  lines : ∀ k i, covers (l.page old) k = true → l.origin k = some i → covers old i = true

/-- What is added: lines without markers that replace nothing, or a wrapper after such lines, at a given place of the old page or at the
end of the new one. -/
inductive Fits (l : Layout) (delay : Int) : Option Nat → Prop
  | plain (unmarked : Unmarked l.added) (last : l.added = [] ∨ l.after = []) : Fits l delay none
  | wrapped {pre : List String} {items : List Item} {place : Option Nat} (added : l.added = pre ++ render items delay)
      (unmarked : Unmarked pre) (storable : ∀ i ∈ items, i.Storable) (before : ∀ p ∈ place, ∀ i ∈ l.before, i < p)
      (after : ∀ p ∈ place, ∀ i ∈ l.after, p < i) (last : place = none → l.after = []) : Fits l delay place

/-- The lines of the wrapper that is written. -/
structure Written (l : Layout) (delay : Int) (place : Option Nat) (old : List String) (w : Range) : Prop where
  delimits : Delimits .start .stop (l.page old) w
  added : ∀ k, w.1 ≤ k → k ≤ w.2 → l.origin k = none
  rendered : ∃ items, linesOf (l.page old) w = render items delay
  first : ∀ k, l.origin k = none → Marker.start.stands (l.page old) k = true → k = w.1
  last : ∀ k, l.origin k = none → Marker.stop.stands (l.page old) k = true → k = w.2
  before : ∀ k i, l.origin k = some i → k < w.1 → ∀ p ∈ place, i < p
  after : ∀ k i, l.origin k = some i → w.2 < k → ∃ p ∈ place, p < i

variable {l : Layout} {old : List String} {removed : Nat → Bool} {delay : Int} {place : Option Nat} {w r : Range} {i j k : Nat}

/-! ## The wrapper that is written -/

section Wrapped

variable {pre rendered : List String}

/-- The markers among the lines that are written, told by their place in the new page. -/
theorem stands_written (old : List String) (added : l.added = pre ++ rendered) (m : Marker) (hk : k < rendered.length) :
    m.stands (l.page old) (l.before.length + pre.length + k) = m.stands rendered k := by
  have hlength : l.added.length = pre.length + rendered.length := by rw [added, List.length_append]
  rw [Nat.add_assoc, stands_page_added l old m (by omega), added, Marker.stands_append_right]

/-- An added marker is one of the wrapper, since there is none before it. -/
theorem exists_stands_written (added : l.added = pre ++ rendered) (unmarked : Unmarked pre) (hnone : l.origin k = none) {m : Marker}
    (hm : m = .start ∨ m = .stop) (hstands : m.stands (l.page old) k = true) :
    ∃ c, k = l.before.length + pre.length + c ∧ m.stands rendered c = true := by
  obtain ⟨d, hd, rfl⟩ := exists_added (lt_length_of_stands hstands) hnone
  rw [stands_page_added l old m hd, added] at hstands
  rcases Nat.lt_or_ge d pre.length with hlt | hge
  · obtain ⟨hstart, hstop⟩ := not_stands_of_unmarked unmarked d
    rw [Marker.stands_append_left _ _ hlt] at hstands
    rcases hm with rfl | rfl
    · exact absurd hstands (by simp [hstart])
    · exact absurd hstands (by simp [hstop])
  · obtain ⟨c, rfl⟩ := Nat.exists_eq_add_of_le hge
    rw [Marker.stands_append_right] at hstands
    exact ⟨c, (Nat.add_assoc _ _ _).symm, hstands⟩

/-- The lines of the wrapper are those that are rendered. -/
theorem linesOf_written (old : List String) (added : l.added = pre ++ rendered) (hne : rendered ≠ []) :
    linesOf (l.page old) (l.before.length + pre.length, l.before.length + l.added.length - 1) = rendered := by
  have hpage : l.page old = (l.before.map (fun i => old[i]?.getD "") ++ pre) ++ rendered ++ l.after.map (fun i => old[i]?.getD "") := by
    rw [page, added]
    simp
  have hrange : (l.before.map (fun i => old[i]?.getD "") ++ pre).length = l.before.length + pre.length := by simp
  rw [hpage, added, List.length_append, ← hrange, ← Nat.add_assoc, ← hrange]
  exact linesOf_append _ _ _ hne

end Wrapped

/-- The wrapper that is written is as it is rendered, and no other added line is a marker. -/
theorem written_of_wrapped (old : List String) {pre : List String} {items : List Item} (added : l.added = pre ++ render items delay)
    (unmarked : Unmarked pre) (storable : ∀ i ∈ items, i.Storable) (before : ∀ p ∈ place, ∀ i ∈ l.before, i < p)
    (after : ∀ p ∈ place, ∀ i ∈ l.after, p < i) (last : place = none → l.after = []) :
    l.Written delay place old (l.before.length + pre.length, l.before.length + l.added.length - 1) := by
  have hlength : l.added.length = pre.length + (render items delay).length := by rw [added, List.length_append]
  have hpos : 1 < (render items delay).length := by
    rw [render_eq]
    simp
  refine ⟨⟨by simp only; omega, ?_, ?_, fun k h₁ h₂ => ?_⟩, fun k h₁ h₂ => ?_, ⟨items, ?_⟩, fun k hnone hstands => ?_,
    fun k hnone hstands => ?_, fun k i hi hlt p hp => ?_, fun k i hi hlt => ?_⟩
  · have hfirst := stands_written old added .start (k := 0) (by omega)
    rw [Nat.add_zero] at hfirst
    rw [hfirst]
    exact (stands_render storable delay 0).1.mpr rfl
  · rw [show l.before.length + l.added.length - 1 = l.before.length + pre.length + ((render items delay).length - 1) by omega,
      stands_written old added .stop (by omega)]
    exact (stands_render storable delay _).2.mpr (by omega)
  · obtain ⟨c, rfl⟩ := Nat.exists_eq_add_of_le (Nat.le_of_lt h₁)
    simp only at h₁ h₂
    have hc := stands_render storable delay c
    rw [stands_written old added _ (by omega), stands_written old added _ (by omega), ← Bool.not_eq_true, ← Bool.not_eq_true, hc.1, hc.2]
    omega
  · exact origin_eq_none_of_mem (by simp only at h₁; omega) (by simp only at h₂; omega)
  · exact linesOf_written old added (render_ne_nil items delay)
  · obtain ⟨c, rfl, hc⟩ := exists_stands_written added unmarked hnone (Or.inl rfl) hstands
    rw [(stands_render storable delay c).1.mp hc]
    rfl
  · obtain ⟨c, rfl, hc⟩ := exists_stands_written added unmarked hnone (Or.inr rfl) hstands
    have := (stands_render storable delay c).2.mp hc
    simp only
    omega
  · have hbefore := (not_added_of_origin hi).resolve_right (by simp only at hlt; omega)
    rw [origin_of_lt hbefore] at hi
    exact before p hp i (List.mem_of_getElem? hi)
  · have hafter := (origin_eq_some.mp hi).resolve_left fun h => by
      have := (List.getElem?_eq_some_iff.mp h).1
      simp only at hlt
      omega
    have hmem := List.mem_of_getElem? hafter.2
    cases place with
    | none => exact absurd hmem (by simp [last rfl])
    | some p => exact ⟨p, rfl, after p rfl i hmem⟩

/-- Either no wrapper is written and lines are added at the end if at all, or there is a wrapper among the added lines. -/
theorem Fits.cases (h : l.Fits delay place) (old : List String) :
    (Unmarked l.added ∧ (l.added = [] ∨ l.after = [])) ∨
      ∃ w, l.Written delay place old w ∧ l.before.length ≤ w.1 ∧ w.2 < l.before.length + l.added.length := by
  cases h with
  | plain unmarked last => exact Or.inl ⟨unmarked, last⟩
  | wrapped added unmarked storable before after last =>
    refine Or.inr ⟨_, written_of_wrapped old added unmarked storable before after last, Nat.le_add_right _ _, ?_⟩
    rw [added, render_eq]
    simp only [List.length_append, List.length_cons]
    omega

/-- A marker that is added belongs to the wrapper that is written. -/
theorem Fits.exists_written (h : l.Fits delay place) (hnone : l.origin k = none)
    (hmark : Marker.start.stands (l.page old) k = true ∨ Marker.stop.stands (l.page old) k = true) :
    ∃ w, l.Written delay place old w := by
  rcases h.cases old with ⟨unmarked, -⟩ | ⟨w, hw, -⟩
  · obtain ⟨d, hd, rfl⟩ := exists_added (hmark.elim lt_length_of_stands lt_length_of_stands) hnone
    obtain ⟨hstart, hstop⟩ := not_stands_of_unmarked unmarked d
    rw [stands_page_added l old _ hd, stands_page_added l old _ hd, hstart, hstop] at hmark
    exact absurd hmark (by simp)
  · exact ⟨w, hw⟩

/-- A wrapper is written if there is a place for it. -/
theorem Fits.exists_written_of_place (h : l.Fits delay place) (old : List String) {p : Nat} (hp : p ∈ place) :
    ∃ w, l.Written delay place old w := by
  cases h with
  | plain => nomatch hp
  | wrapped added unmarked storable before after last => exact ⟨_, written_of_wrapped old added unmarked storable before after last⟩

/-- The wrapper that is written lies between the kept lines between which its place is. -/
theorem Written.lies_between (h : l.Written delay place old w) {a b p : Nat} (ha : l.origin a = some i) (hb : l.origin b = some j)
    (hp : p ∈ place) (hi : i < p) (hj : p < j) : a < w.1 ∧ w.2 < b := by
  have hplace : ∀ {q}, q ∈ place → q = p := fun hq => Option.some.inj (hq.symm.trans hp)
  constructor
  · by_contra hge
    rcases Nat.lt_or_ge w.2 a with hlt | hle
    · obtain ⟨q, hq, hqi⟩ := h.after a i ha hlt
      rw [hplace hq] at hqi
      omega
    · rw [h.added a (by omega) hle] at ha
      nomatch ha
  · by_contra hge
    rcases Nat.lt_or_ge b w.1 with hlt | hle
    · have := h.before b j hb hlt p hp
      omega
    · rw [h.added b hle (by omega)] at hb
      nomatch hb

/-- Kept lines with an added one between them have the wrapper that is written between them. -/
theorem Fits.straddles (h : l.Fits delay place) (old : List String) {a b : Nat} (ha : l.origin a = some i) (hb : l.origin b = some j)
    (hak : a < k) (hkb : k < b) (hnone : l.origin k = none) : ∃ w, l.Written delay place old w ∧ a < w.1 ∧ w.2 < b := by
  have hlt : k < (l.page old).length := by
    rw [length_page]
    rcases origin_eq_some.mp hb with hb | ⟨-, hb⟩
    · have := (List.getElem?_eq_some_iff.mp hb).1
      omega
    · have := (List.getElem?_eq_some_iff.mp hb).1
      omega
  obtain ⟨d, hd, rfl⟩ := exists_added hlt hnone
  have ha := (not_added_of_origin ha).resolve_right (by omega)
  have hb' := (not_added_of_origin hb).resolve_left (by omega)
  rcases h.cases old with ⟨-, hadded | hafter⟩ | ⟨w, hw, hfirst, hlast⟩
  · rw [hadded] at hd
    nomatch hd
  · have := (origin_eq_some.mp hb).resolve_left (by rw [List.getElem?_eq_none (by omega)]; nofun)
    rw [hafter] at this
    nomatch this.2
  · exact ⟨w, hw, by omega, by omega⟩

/-! ## Wrappers of the new page -/

/-- Kept markers enclose a wrapper of the new page if all markers between them are removed and none is written there. -/
theorem mem_blocks_of_gone (hkeeps : l.Keeps removed old) (hfits : l.Fits delay place) {a b : Nat} (ha : l.origin a = some i)
    (hb : l.origin b = some j) (hij : i < j) (hstart : Marker.start.stands old i = true) (hstop : Marker.stop.stands old j = true)
    (hgone : ∀ k, i < k → k < j → Marker.start.stands old k = true ∨ Marker.stop.stands old k = true → removed k = true)
    (hplace : ∀ p ∈ place, ¬(i < p ∧ p < j)) : (a, b) ∈ blocks (l.page old) := by
  refine mem_blocks.mpr ⟨hkeeps.lt_of_origin_lt ha hb hij, by rw [hkeeps.stands_page ha, hstart],
    by rw [hkeeps.stands_page hb, hstop], fun k hak hkb => ?_⟩
  cases hk : l.origin k with
  | none =>
    obtain ⟨w, hw, haw, hwb⟩ := hfits.straddles old ha hb hak hkb hk
    obtain ⟨p, hp, hpj⟩ := hw.after b j hb hwb
    exact absurd ⟨hw.before a i ha haw p hp, hpj⟩ (hplace p hp)
  | some x =>
    have hx := (hkeeps.of_origin hk).2
    have hquiet : ¬(Marker.start.stands old x = true ∨ Marker.stop.stands old x = true) := by
      intro hmark
      rw [hgone x (hkeeps.lt ha hk hak) (hkeeps.lt hk hb hkb) hmark] at hx
      nomatch hx
    rw [not_or, Bool.not_eq_true, Bool.not_eq_true] at hquiet
    rwa [hkeeps.stands_page hk, hkeeps.stands_page hk]

/-- Markers that join enclose a wrapper of the new page that has not been one. -/
theorem not_apart_of_joins (hkeeps : l.Keeps removed old) (hfits : l.Fits delay place) (h : Joins removed place old) :
    ¬l.Apart delay old := by
  obtain ⟨i, j, hij, hi, hj, hstart, hstop, ⟨m, him, hmj, hmark⟩, hgone, hplace⟩ := h
  obtain ⟨a, ha⟩ := hkeeps.exists_origin hi (Or.inl hstart)
  obtain ⟨b, hb⟩ := hkeeps.exists_origin hj (Or.inr hstop)
  have hblock := mem_blocks_of_gone hkeeps hfits ha hb hij hstart hstop hgone hplace
  intro hapart
  rcases hapart.wrappers (a, b) hblock with ⟨hadded, -⟩ | ⟨r', hr', hlength, horigin⟩
  · have := hadded a (Nat.le_refl a) (Nat.le_of_lt (mem_blocks.mp hblock).lt)
    rw [ha] at this
    nomatch this
  -- The wrapper of the old page would have a marker in it.
  · have hlt := (mem_blocks.mp hblock).lt
    have hlt' := (mem_blocks.mp hr').lt
    simp only at hlength horigin hlt
    have hfirst := horigin 0 (Nat.zero_le _)
    have hlast := horigin (b - a) (Nat.le_refl _)
    rw [Nat.add_zero, Nat.add_zero, ha, Option.some.injEq] at hfirst
    rw [show a + (b - a) = b by omega, hb, Option.some.injEq] at hlast
    have hquiet := (mem_blocks.mp hr').between m (by omega) (by omega)
    rw [hquiet.1, hquiet.2] at hmark
    exact absurd hmark (by simp)

/-- No wrapper is written inside another one. -/
theorem Written.not_inside (hw : l.Written delay place old w) (h : Delimits .start .stop (l.page old) r) (h₁ : r.1 < w.1) (h₂ : w.1 < r.2) : False := by
  have := (h.between w.1 h₁ h₂).1
  rw [hw.delimits.first] at this
  cases this

/-- Markers between those of a wrapper are removed. -/
theorem removed_of_delimits (hkeeps : l.Keeps removed old) (hr : Delimits .start .stop (l.page old) r) (hi : l.origin r.1 = some i)
    (hj : l.origin r.2 = some j) (hik : i < k) (hkj : k < j)
    (hmark : Marker.start.stands old k = true ∨ Marker.stop.stands old k = true) : removed k = true := by
  by_contra hk
  obtain ⟨c, hc⟩ := hkeeps.exists_origin (Bool.not_eq_true _ ▸ hk) hmark
  have hquiet := hr.between c (hkeeps.lt_of_origin_lt hi hc hik) (hkeeps.lt_of_origin_lt hc hj hkj)
  rw [hkeeps.stands_page hc, hkeeps.stands_page hc] at hquiet
  exact absurd hmark (by simp [hquiet.1, hquiet.2])

/-- Unless markers join, kept markers that enclose a wrapper have done so before. -/
theorem delimits_of_not_joins (hkeeps : l.Keeps removed old) (hfits : l.Fits delay place) (h : ¬Joins removed place old)
    (hr : Delimits .start .stop (l.page old) r) (hi : l.origin r.1 = some i) (hj : l.origin r.2 = some j) : Delimits .start .stop old (i, j) := by
  have hij := hkeeps.lt hi hj hr.lt
  have hstart : Marker.start.stands old i = true := by rw [← hkeeps.stands_page hi, hr.first]
  have hstop : Marker.stop.stands old j = true := by rw [← hkeeps.stands_page hj, hr.last]
  refine ⟨hij, hstart, hstop, fun m him hmj => ?_⟩
  rw [← Bool.not_eq_true, ← Bool.not_eq_true, ← not_or]
  intro hmark
  -- The markers between are removed, and a wrapper between would be seen, so markers join.
  refine h ⟨i, j, hij, (hkeeps.of_origin hi).2, (hkeeps.of_origin hj).2, hstart, hstop, ⟨m, him, hmj, hmark⟩,
    fun x => removed_of_delimits hkeeps hr hi hj, ?_⟩
  rintro p hp ⟨hip, hpj⟩
  obtain ⟨w, hw⟩ := hfits.exists_written_of_place old hp
  obtain ⟨h₁, h₂⟩ := hw.lies_between hi hj hp hip hpj
  have hlt := hw.delimits.lt
  exact hw.not_inside hr h₁ (by omega)

/-- A wrapper of the new page is the one that is written, or its markers are kept. -/
theorem Fits.wrapper_cases (hfits : l.Fits delay place) (hr : Delimits .start .stop (l.page old) r) :
    l.Written delay place old r ∨ ∃ i j, l.origin r.1 = some i ∧ l.origin r.2 = some j := by
  cases hi : l.origin r.1 with
  | none =>
    obtain ⟨w, hw⟩ := hfits.exists_written hi (Or.inl hr.first)
    have hfirst := hw.first r.1 hi hr.first
    obtain rfl : r = w := Prod.ext hfirst (hr.snd_eq hw.delimits hfirst)
    exact Or.inl hw
  | some i =>
    cases hj : l.origin r.2 with
    | none =>
      obtain ⟨w, hw⟩ := hfits.exists_written hj (Or.inr hr.last)
      have h₂ := hw.last r.2 hj hr.last
      have hlt := hw.delimits.lt
      rcases Nat.lt_or_ge r.1 w.1 with h₁ | h₁
      · exact (hw.not_inside hr h₁ (by omega)).elim
      · have hlt' := hr.lt
        rw [hw.added r.1 h₁ (by omega)] at hi
        cases hi
    | some j => exact Or.inr ⟨i, j, rfl, rfl⟩

/-- A wrapper of the new page is the one that is written or a wrapper of the old page, unless markers join. -/
theorem wrapper_of_not_joins (hkeeps : l.Keeps removed old) (hfits : l.Fits delay place) (h : ¬Joins removed place old)
    (hwhole : ∀ r ∈ blocks old, removed r.1 = false → ∀ k, r.1 ≤ k → k ≤ r.2 → removed k = false) (hr : r ∈ blocks (l.page old)) :
    ((∀ k, r.1 ≤ k → k ≤ r.2 → l.origin k = none) ∧ ∃ items, linesOf (l.page old) r = render items delay) ∨
      ∃ r' ∈ blocks old, r.2 - r.1 = r'.2 - r'.1 ∧ ∀ d ≤ r.2 - r.1, l.origin (r.1 + d) = some (r'.1 + d) := by
  have hdelimits := mem_blocks.mp hr
  rcases hfits.wrapper_cases hdelimits with hw | ⟨i, j, hi, hj⟩
  · exact Or.inl ⟨hw.added, hw.rendered⟩
  · have hold := delimits_of_not_joins hkeeps hfits h hdelimits hi hj
    have hadded : ∀ k, r.1 < k → k < r.2 → l.origin k ≠ none := by
      intro k h₁ h₂ hnone
      obtain ⟨w, hw, hw₁, hw₂⟩ := hfits.straddles old hi hj h₁ h₂ hnone
      have hlt := hw.delimits.lt
      exact hw.not_inside hdelimits hw₁ (by omega)
    have hkept := hwhole (i, j) (mem_blocks.mpr hold) (hkeeps.of_origin hi).2
    obtain ⟨hlength, hrun⟩ := hkeeps.run hi hj hadded hkept (Nat.le_of_lt hold.lt)
    exact Or.inr ⟨(i, j), mem_blocks.mpr hold, hlength, hrun⟩

/-- Wrappers stay apart exactly if no markers join. -/
theorem apart_iff (hkeeps : l.Keeps removed old) (hfits : l.Fits delay place)
    (hwhole : ∀ r ∈ blocks old, removed r.1 = false → ∀ k, r.1 ≤ k → k ≤ r.2 → removed k = false) :
    l.Apart delay old ↔ ¬Joins removed place old := by
  refine ⟨fun hapart h => not_apart_of_joins hkeeps hfits h hapart, fun h => ?_⟩
  have hwrappers := fun r hr => wrapper_of_not_joins (r := r) hkeeps hfits h hwhole hr
  refine ⟨hwrappers, fun k i hcovers hi => ?_⟩
  obtain ⟨r, hr, h₁, h₂⟩ := covers_iff.mp hcovers
  rcases hwrappers r hr with ⟨hadded, -⟩ | ⟨r', hr', hlength, horigin⟩
  · rw [hadded k h₁ h₂] at hi
    nomatch hi
  · have hk := horigin (k - r.1) (by omega)
    rw [show r.1 + (k - r.1) = k by omega, hi, Option.some.injEq] at hk
    have hlt := (mem_blocks.mp hr').lt
    exact covers_iff.mpr ⟨r', hr', by omega, by omega⟩

end Layout

end UserScripts.Page
