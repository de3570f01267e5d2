import UserScripts.Manager.Basic
import UserScripts.Proofs.Gathering.Sound

/-!
# One operation goes on

An operation that runs beside others can go on while these rest. It gets as far as it would if it ran alone, up to the next key that
it asks for, and it gets that key if nobody has ever asked for it. Main statements: `reaches_of_leads` and `Sound.reaches_entered`.
-/

namespace UserScripts

variable {α β : Type} {env : Surroundings} {s t u : Session}

namespace Session

/-! ## Between keys -/

/-- A routine gets to another one by queries that are not about keys. -/
inductive Leads (env : Surroundings) : Session → Routine α → Session → Routine α → Prop where
  | refl (s : Session) (r : Routine α) : Leads env s r s r
  | ask {s t : Session} {q : Query} {next : q.Answer → Routine α} {r : Routine α} (hq : q.isAboutKey = false)
      (hnext : Leads env (s.answer env q).2 (next (s.answer env q).1) t r) : Leads env s (.ask q next) t r

namespace Leads

theorem trans {r r' r'' : Routine α} (h : Leads env s r t r') (h' : Leads env t r' u r'') : Leads env s r u r'' := by
  induction h with
  | refl => exact h'
  | ask hq _ ih => exact .ask hq (ih h')

/-- A routine that gets somewhere gets there also where more is to follow. -/
theorem bind {r r' : Routine α} (h : Leads env s r t r') (f : α → Routine β) : Leads env s (r >>= f) t (r' >>= f) := by
  induction h with
  | refl => exact .refl _ _
  | ask hq _ ih => exact .ask hq ih

/-- A routine that gets somewhere gets there also where its failure is caught. -/
theorem attempt {r r' : Routine α} (h : Leads env s r t r') : Leads env s r.attempt t r'.attempt := by
  induction h with
  | refl => exact .refl _ _
  | ask hq _ ih => exact .ask hq ih

end Leads

/-- A routine without keys gets to its end. -/
theorem leads_of_keyless {r : Routine α} (h : r.Keyless) : Leads env s r (s.run env r).2 (.done (s.run env r).1) := by
  induction h generalizing s with
  | done outcome => exact .refl _ _
  | ask hq _ ih => exact .ask hq (ih _)

/-- A sequence gets to its second part if its first part asks for no key and does not fail. -/
theorem leads_bind {r : Routine α} {a : α} (h : r.Keyless) (hrun : s.run env r = (.ok a, t)) (f : α → Routine β) :
    Leads env s (r >>= f) t (f a) := by
  have hleads : Leads env s (r >>= f) _ _ := (leads_of_keyless h).bind f
  rw [hrun] at hleads
  exact hleads

/-- A routine that asks for a key at once and then, when it has got it, for another one. -/
def AsksTwice (env : Surroundings) (s : Session) (r : Routine α) (first : String) (t : Session) (second : String) : Prop :=
  ∃ next next', r = .ask (.acquire first) next ∧ Leads env s (next ()) t (.ask (.acquire second) next')

/-- A routine that asks for two keys does so also where more is to follow. -/
theorem AsksTwice.bind {r : Routine α} {first second : String} (h : AsksTwice env s r first t second) (f : α → Routine β) :
    AsksTwice env s (r >>= f) first t second := by
  obtain ⟨next, next', rfl, hleads⟩ := h
  exact ⟨_, _, rfl, hleads.bind f⟩

/-- A routine that is carried out under one key and gets to ask for another one asks for two. -/
theorem asksTwice_holding {r : Routine α} {first second : String} {next : Unit → Routine α}
    (h : Leads env s r t (.ask (.acquire second) next)) : AsksTwice env s (Manager.holding first r) first t second :=
  ⟨_, _, rfl, h.attempt.bind _⟩

end Session

namespace Lock

variable {ι : Type} [DecidableEq ι] {name : ι → String} {l : Lock ι} {owner : ι}

/-- The first ticket on a key lets its owner in at once. -/
theorem Sound.isInside_draw (h : l.Sound name) (hnone : l.ticket? owner = none) {key : String}
    (hfresh : ∀ t ∈ l.tickets, t.key ≠ keyOf key) : (l.draw owner key).isInside owner = true := by
  have hempty : onKey (keyOf key) l.tickets = [] :=
    List.filter_eq_nil_iff.mpr fun t ht hkey => hfresh t ht (eq_of_beq hkey)
  have htail : l.tails.get? (keyOf key) = none := by
    rcases h.tail (keyOf key) with htail | htail
    · rw [htail, hempty]
      rfl
    · exact htail.1
  refine isInside_iff.mpr ⟨_, ticket?_draw hnone key, ?_⟩
  simp [newTicket, htail, isFree]

/-- Whoever is inside has nothing to take notice of. -/
theorem turn_of_isInside (h : l.isInside owner = true) : l.turn owner = l := by
  obtain ⟨t, hfind, hphase⟩ := isInside_iff.mp h
  simp [turn, hfind, isPending, hphase]

end Lock

namespace Gathering

variable {g g' g'' : Gathering α} {i j : Nat} {member : Member α}

/-! ## Runs -/

/-- Some order of steps leads from one state to another one. -/
def Reaches (env : Surroundings) (g g' : Gathering α) : Prop :=
  ∃ order, g.run env order = g'

/-- A state leads to itself, by no step. -/
theorem Reaches.refl (env : Surroundings) (g : Gathering α) : Reaches env g g :=
  ⟨[], rfl⟩

theorem Reaches.trans (h : Reaches env g g') (h' : Reaches env g' g'') : Reaches env g g'' := by
  obtain ⟨order, rfl⟩ := h
  obtain ⟨order', rfl⟩ := h'
  exact ⟨order ++ order', List.foldl_append⟩

/-- A single step is an order of steps. -/
theorem Step.reaches (h : Step env g i g') : Reaches env g g' := by
  refine ⟨[i], ?_⟩
  rw [run, List.foldl_cons, List.foldl_nil, step_eq_some_iff.mpr h, Option.getD_some]

/-! ## Going on alone -/

/-- An operation that asks for no key goes on as if it were alone. -/
theorem reaches_of_leads {r r' : Routine α} (h : Session.Leads env s r t r') (hsession : g.session = s)
    (hat : g.members[i]? = some member) (hrest : member.rest = r) :
    Reaches env g { g with session := t, members := g.members.set i { member with rest := r' } } := by
  induction h generalizing g member with
  | refl s r =>
    obtain rfl := hsession
    obtain rfl := hrest
    obtain ⟨hlt, rfl⟩ := List.getElem?_eq_some_iff.mp hat
    rw [List.set_getElem_self]
    exact .refl env g
  | @ask s t q next r hq hnext ih =>
    obtain rfl := hsession
    have hstep : Reaches env g _ := (Step.answer hat hrest hq).reaches
    have hlt := (List.getElem?_eq_some_iff.mp hat).1
    refine hstep.trans ?_
    have hgoes := ih (g := { g.put i { member with rest := next (g.session.answer env q).1 } with
      session := (g.session.answer env q).2 }) rfl (List.getElem?_set_self hlt) rfl
    simpa only [put, List.set_set] using hgoes

/-- An operation that asks for a key gets it if nobody has ever asked for that. -/
theorem Sound.reaches_entered (h : g.Sound) (env : Surroundings) {key : String} {next : Unit → Routine α} (hat : g.members[i]? = some member)
    (hrest : member.rest = .ask (.acquire key) next) (hcalled : member.called = false)
    (hfresh : ∀ t ∈ g.lock.tickets, t.key ≠ Lock.keyOf key) :
    ∃ lock : Lock Caller, (∀ t ∈ lock.tickets, t ∈ g.lock.tickets ∨ t.key = Lock.keyOf key) ∧
      Reaches env g { g with
        lock, members := g.members.set i
          { rest := next (), count := member.count + 1, held := ⟨i, member.count, key⟩ :: member.held } } := by
  have hnone := h.ticket?_eq_none hat hcalled key
  have hinside := h.lock.isInside_draw hnone hfresh
  have hturn := Lock.turn_of_isInside hinside
  have hlt := (List.getElem?_eq_some_iff.mp hat).1
  have hcall : Step env g i _ := .call hat hrest hcalled
  have henter : Step env { g.put i { member with called := true } with lock := g.lock.draw ⟨i, member.count, key⟩ key } i _ := .enter
    (List.getElem?_set_self hlt) hrest rfl (hturn.symm ▸ hinside)
  refine ⟨g.lock.draw ⟨i, member.count, key⟩ key, fun t ht => ?_, ?_⟩
  · rw [Lock.draw, hnone] at ht
    rcases List.mem_cons.mp ht with rfl | ht
    · exact Or.inr rfl
    · exact Or.inl ht
  · have hboth := hcall.reaches.trans henter.reaches
    simpa only [put, List.set_set, hturn] using hboth

end Gathering

end UserScripts
