import Mathlib.Tactic.Common
import UserScripts.Text.Scan

/-!
# Facts about substitution

What is written in place of the text that a reader takes. Main statements: `substitute_induction` and `countP_substitute`.
-/

namespace UserScripts.Text

section

variable {read : List Char → Option (Nat × List Char)}

/-- Substitution from a position on is substitution of what is left there. -/
theorem substituteFrom_eq_drop (k : Nat) (s : List Char) :
    substituteFrom read k s = substituteFrom read 0 (s.drop k) := by
  induction k generalizing s with
  | zero => rfl
  | succ k ih =>
    cases s with
    | nil => rfl
    | cons c s => rw [substituteFrom, ih, List.drop_succ_cons]

@[simp]
theorem substitute_nil : substitute read [] = [] := rfl

/-- A place where nothing is substituted keeps its character. -/
theorem substitute_cons_of_none {c : Char} {s : List Char} (h : read (c :: s) = none) :
    substitute read (c :: s) = c :: substitute read s := by
  rw [substitute, substituteFrom, h, substitute]

/-- A match of no length is passed by. -/
theorem substitute_cons_of_zero {c : Char} {s new : List Char} (h : read (c :: s) = some (0, new)) :
    substitute read (c :: s) = c :: substitute read s := by
  rw [substitute, substituteFrom, h, substitute]

/-- A place where something is substituted. -/
theorem substitute_cons_of_some {c : Char} {s new : List Char} {n : Nat} (h : read (c :: s) = some (n + 1, new)) :
    substitute read (c :: s) = new ++ substitute read (s.drop n) := by
  rw [substitute, substituteFrom, h, substitute]
  exact congrArg (new ++ ·) (substituteFrom_eq_drop n s)

/-- A text in which nothing is substituted stays as it is. -/
theorem substitute_eq_self {s : List Char} (h : ∀ p t, s = p ++ t → t ≠ [] → read t = none) : substitute read s = s := by
  induction s with
  | nil => rfl
  | cons c s ih =>
    rw [substitute_cons_of_none (h [] (c :: s) rfl (by simp)), ih]
    intro p t hs ht
    exact h (c :: p) t (by rw [hs, List.cons_append]) ht

/-- A property of a text and its substitution that holds of both parts at every place. -/
theorem substitute_induction {motive : List Char → List Char → Prop} (nil : motive [] [])
    (keep : ∀ c s new, motive s new → motive (c :: s) (c :: new))
    (replace : ∀ s n old new, read s = some (n, old) → motive (s.drop n) new → motive s (old ++ new)) (s : List Char) :
    motive s (substitute read s) := by
  induction hlen : s.length using Nat.strongRecOn generalizing s with
  | _ len ih =>
    cases s with
    | nil => exact nil
    | cons c s =>
      rw [List.length_cons] at hlen
      rcases hread : read (c :: s) with _ | ⟨_ | n, new⟩
      · rw [substitute_cons_of_none hread]
        exact keep c s _ (ih s.length (by omega) s rfl)
      · rw [substitute_cons_of_zero hread]
        exact keep c s _ (ih s.length (by omega) s rfl)
      · rw [substitute_cons_of_some hread]
        exact replace (c :: s) (n + 1) new _ hread (ih (s.drop n).length (by rw [List.length_drop]; omega) (s.drop n) rfl)

/-- Substitution gains nothing that no replacement gains. -/
theorem countP_substitute_le {p : Char → Bool}
    (h : ∀ s n new, read s = some (n, new) → new.countP p ≤ (s.take n).countP p) (s : List Char) :
    (substitute read s).countP p ≤ s.countP p := by
  refine substitute_induction (motive := fun s new => new.countP p ≤ s.countP p) (Nat.le_refl _) ?_ ?_ s
  · intro c s new hle
    rw [List.countP_cons, List.countP_cons]
    omega
  · intro s n old new hread hle
    have hold := h s n old hread
    have hsplit : s.countP p = (s.take n).countP p + (s.drop n).countP p := by
      rw [← List.countP_append, List.take_append_drop]
    rw [List.countP_append]
    omega

/-- Substitution loses nothing that no replacement loses. -/
theorem countP_le_substitute {p : Char → Bool}
    (h : ∀ s n new, read s = some (n, new) → (s.take n).countP p ≤ new.countP p) (s : List Char) :
    s.countP p ≤ (substitute read s).countP p := by
  refine substitute_induction (motive := fun s new => s.countP p ≤ new.countP p) (Nat.le_refl _) ?_ ?_ s
  · intro c s new hle
    rw [List.countP_cons, List.countP_cons]
    omega
  · intro s n old new hread hle
    have hold := h s n old hread
    have hsplit : s.countP p = (s.take n).countP p + (s.drop n).countP p := by
      rw [← List.countP_append, List.take_append_drop]
    rw [List.countP_append]
    omega

/-- Substitution neither gains nor loses what no replacement does. -/
theorem countP_substitute {p : Char → Bool}
    (h : ∀ s n new, read s = some (n, new) → new.countP p = (s.take n).countP p) (s : List Char) :
    (substitute read s).countP p = s.countP p :=
  Nat.le_antisymm (countP_substitute_le (fun s n new hread => Nat.le_of_eq (h s n new hread)) s)
    (countP_le_substitute (fun s n new hread => Nat.le_of_eq (h s n new hread).symm) s)

end

end UserScripts.Text
