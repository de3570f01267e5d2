import Mathlib.Data.List.Forall2
import UserScripts.Proofs.Wrapper.Blocks

/-!
# Lines changed in place

Where the wrappers of a page are depends on its markers, and what they hold on the lines in them. So a page that is revised line by
line outside its wrappers keeps them as they are, as long as no marker goes and no line turns into one. Main statements:
`Revised.blocks` and `Revised.decode`.
-/

namespace UserScripts.Wrapper

/-- The lines of a page of which some outside the complete wrappers have given way to others, none of them from a marker or to one. -/
structure Revised (old new : List String) : Prop where
  length_eq : new.length = old.length
  line : ∀ {i : Nat} {l l' : String}, old[i]? = some l → new[i]? = some l' → l' = l ∨ covers old i = false ∧ Tame l ∧ Tame l'

variable {opens closes : Marker} {old new : List String} {i : Nat} {isOpen : Option Nat}

/-- Only the markers decide where runs are. -/
theorem rangesFrom_congr (h : List.Forall₂ (fun l l' => ∀ m : Marker, m.marks l' = m.marks l) old new) :
    rangesFrom opens closes i isOpen new = rangesFrom opens closes i isOpen old := by
  induction h generalizing i isOpen with
  | nil => rfl
  | cons hline _ ih => rw [rangesFrom_cons, rangesFrom_cons, hline, hline, ih, ih, ih]

/-- Wrappers in the same places with the same lines hold the same items. -/
theorem decode_congr (hblocks : blocks new = blocks old) (h : ∀ i, covers old i = true → new[i]? = old[i]?) :
    decode new = decode old := by
  have hlines : blockLines new = blockLines old := by
    rw [← map_linesOf_blocks, ← map_linesOf_blocks, hblocks]
    refine List.map_congr_left fun r hr => List.ext_getElem? fun j => ?_
    rw [linesOf, linesOf, List.getElem?_take, List.getElem?_take, List.getElem?_drop, List.getElem?_drop]
    split
    · next hj =>
      have hhas : r.has (r.1 + j) = true := by
        simp only [Range.has, Bool.and_eq_true, decide_eq_true_eq]
        omega
      exact h _ (List.any_eq_true.mpr ⟨r, hr, hhas⟩)
    · rfl
  rw [decode_eq, decode_eq, hlines]

namespace Revised

/-- A line inside the complete wrappers is not revised. -/
theorem getElem?_of_covers (h : Revised old new) (hcovers : covers old i = true) : new[i]? = old[i]? := by
  cases hold : old[i]? with
  | none => rw [List.getElem?_eq_none_iff] at hold ⊢; rwa [h.length_eq]
  | some l =>
    cases hnew : new[i]? with
    | none =>
      rw [List.getElem?_eq_none_iff, h.length_eq, ← List.getElem?_eq_none_iff, hold] at hnew
      cases hnew
    | some l' =>
      rcases h.line hold hnew with rfl | ⟨houtside, -⟩
      · rfl
      · rw [hcovers] at houtside
        cases houtside

/-- A revised page has the complete wrappers that it had. -/
theorem blocks (h : Revised old new) : Wrapper.blocks new = Wrapper.blocks old := by
  refine rangesFrom_congr (List.forall₂_iff_get.mpr ⟨h.length_eq.symm, fun i hi hi' m => ?_⟩)
  rcases h.line (List.getElem?_eq_getElem hi) (List.getElem?_eq_getElem hi') with heq | ⟨-, htame, htame'⟩
  · rw [List.get_eq_getElem, List.get_eq_getElem, heq]
  · rw [List.get_eq_getElem, List.get_eq_getElem, htame.marks, htame'.marks]

/-- The complete wrappers of a revised page cover the positions that they have covered. -/
theorem covers (h : Revised old new) : Wrapper.covers new = Wrapper.covers old := by
  funext i
  rw [Wrapper.covers, Wrapper.covers, h.blocks]

/-- A revised page has the items that it had. -/
theorem decode (h : Revised old new) : Wrapper.decode new = Wrapper.decode old :=
  decode_congr h.blocks fun _ => h.getElem?_of_covers

end Revised

end UserScripts.Wrapper
