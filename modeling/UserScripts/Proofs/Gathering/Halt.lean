import Mathlib.Logic.Hydra
import UserScripts.Proofs.Gathering.Sound

/-!
# Operations come to a halt

Operations that run side by side cannot go on for ever: each step takes one of them further in what it has to do, or makes it call
for the key that it asks for. So from any state one gets to a state in which no operation has a step. Main statement:
`exists_halt`.
-/

namespace UserScripts

variable {α : Type}

/-- A routine that comes after an answer to the query of another one. -/
def Routine.IsRest (rest r : Routine α) : Prop :=
  ∃ q next, r = .ask q next ∧ ∃ a, rest = next a

namespace Member

/-- An operation that has got further than before, or has called for its key since. -/
def IsAfter (after before : Member α) : Prop :=
  after.rest.IsRest before.rest ∨ after.rest = before.rest ∧ before.called = false ∧ after.called = true

/-- If operations with less to do get further only finitely often, so does an operation. -/
theorem acc_of_rests {r : Routine α} (hrests : ∀ member : Member α, member.rest.IsRest r → Acc IsAfter member) (member : Member α)
    (hrest : member.rest = r) : Acc IsAfter member := by
  have hcalled : ∀ after : Member α, after.rest = r → after.called = true → Acc IsAfter after := by
    intro after hsame hcalled
    refine ⟨_, fun later hlater => ?_⟩
    rcases hlater with hlater | ⟨-, hnot, -⟩
    · exact hrests later (hsame ▸ hlater)
    · rw [hcalled] at hnot
      nomatch hnot
  refine ⟨_, fun after hafter => ?_⟩
  rcases hafter with hafter | ⟨hsame, -, hafter⟩
  · exact hrests after (hrest ▸ hafter)
  · exact hcalled after (hsame.trans hrest) hafter

/-- An operation gets further only finitely often. -/
theorem wellFounded_isAfter : WellFounded (IsAfter : Member α → Member α → Prop) := by
  have hacc : ∀ r : Routine α, ∀ member : Member α, member.rest = r → Acc IsAfter member := by
    intro r
    induction r with
    | done outcome => exact acc_of_rests fun member ⟨_, _, hask, _⟩ => nomatch hask
    | ask q next ih =>
      refine acc_of_rests fun member ⟨q', next', hask, a, hrest⟩ => ?_
      obtain ⟨rfl, hnext⟩ := Routine.ask.inj hask
      exact ih a member (eq_of_heq hnext ▸ hrest)
  exact ⟨fun member => hacc member.rest member rfl⟩

end Member

namespace Gathering

variable {env : Surroundings} {g g' : Gathering α} {i : Nat}

/-- A step takes one operation further. -/
theorem Step.isAfter (h : Step env g i g') :
    ∃ before after, g.members[i]? = some before ∧ g'.members = g.members.set i after ∧ after.IsAfter before := by
  cases h with
  | call hat hrest hcalled => exact ⟨_, _, hat, rfl, Or.inr ⟨rfl, hcalled, rfl⟩⟩
  | enter hat hrest _ _ => exact ⟨_, _, hat, rfl, Or.inl ⟨_, _, hrest, (), rfl⟩⟩
  | @release member key next hat hrest =>
    rw [Gathering.release]
    split
    · exact ⟨_, _, hat, rfl, Or.inl ⟨_, _, hrest, (), rfl⟩⟩
    · exact ⟨_, _, hat, rfl, Or.inl ⟨_, _, hrest, (), rfl⟩⟩
  | answer hat hrest _ => exact ⟨_, _, hat, rfl, Or.inl ⟨_, _, hrest, _, rfl⟩⟩

/-- Putting something smaller in a place of a list makes the list smaller as a multiset. -/
theorem cutExpand_set {β : Type} {r : β → β → Prop} {l : List β} {before after : β} (hat : l[i]? = some before)
    (hless : r after before) : Relation.CutExpand r (l.set i after) l := by
  induction l generalizing i with
  | nil => simp at hat
  | cons b l ih =>
    cases i with
    | zero =>
      obtain rfl : b = before := by simpa using hat
      rw [List.set_cons_zero, ← Multiset.cons_coe, ← Multiset.cons_coe, ← Multiset.singleton_add, ← Multiset.singleton_add]
      exact Relation.cutExpand_single_add hless l
    | succ i =>
      rw [List.set_cons_succ, ← Multiset.cons_coe, ← Multiset.cons_coe, ← Multiset.singleton_add, ← Multiset.singleton_add]
      exact (Relation.cutExpand_add_left {b}).mpr (ih (by simpa using hat))

/-- Operations that run side by side have only finitely many steps. -/
theorem wellFounded_step (env : Surroundings) : WellFounded fun g' g : Gathering α => ∃ i, Step env g i g' := by
  have hcut := (Member.wellFounded_isAfter : WellFounded (Member.IsAfter : Member α → Member α → Prop)).cutExpand
  refine Subrelation.wf ?_ (InvImage.wf (fun g : Gathering α => (g.members : Multiset (Member α))) hcut)
  rintro g' g ⟨i, hstep⟩
  obtain ⟨before, after, hat, hset, hless⟩ := hstep.isAfter
  rw [InvImage, hset]
  exact cutExpand_set hat hless

/-- From any state the operations can get to one in which none of them has a step. -/
theorem exists_halt (env : Surroundings) (g : Gathering α) : ∃ order, ∀ i, (g.run env order).step env i = none := by
  induction g using (wellFounded_step env).induction with
  | _ g ih =>
    by_cases hnone : ∀ i, g.step env i = none
    · exact ⟨[], hnone⟩
    · obtain ⟨i, hi⟩ := not_forall.mp hnone
      obtain ⟨g', hstep⟩ := Option.ne_none_iff_exists'.mp hi
      obtain ⟨order, horder⟩ := ih g' ⟨i, step_eq_some_iff.mp hstep⟩
      refine ⟨i :: order, ?_⟩
      rw [run, List.foldl_cons, hstep]
      exact horder

end Gathering

end UserScripts
