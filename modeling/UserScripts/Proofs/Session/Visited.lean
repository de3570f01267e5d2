import UserScripts.Lock
import UserScripts.Proofs.Session.Effect

/-!
# The states on the way

The states through which a run goes. What is true in all of them is true whenever the run is looked at, also between two edits and
however it ends. A part of a run that saves one page only leaves all other pages as they are in every one of its states. A routine
that asks for a key that it holds would wait for itself for ever; whether it does is seen from its queries alone. Main statements:
`mem_visited_bind`, `Frame.bind` and `Routine.Keeps.attempt_bind`.
-/

namespace UserScripts

namespace Session

variable {α β : Type} {env : Surroundings} {s t u : Session} {site : Site} {title : String}

/-- The states through which a run goes, from its start to its end. -/
def visited (env : Surroundings) (s : Session) : Routine α → List Session
  | .done _ => [s]
  | .ask q next => s :: visited env (s.answer env q).2 (next (s.answer env q).1)

/-- A run ends in one of its states. -/
theorem run_mem_visited (env : Surroundings) (s : Session) (r : Routine α) : (s.run env r).2 ∈ s.visited env r := by
  induction r generalizing s with
  | done outcome => exact List.mem_singleton.mpr rfl
  | ask q next ih => exact List.mem_cons_of_mem _ (ih _ _)

/-- A sequence goes through the states of its first part, and then through those of its second part. -/
theorem mem_visited_bind {r : Routine α} {f : α → Routine β} (h : u ∈ s.visited env (r >>= f)) :
    u ∈ s.visited env r ∨ ∃ a t, s.run env r = (.ok a, t) ∧ u ∈ t.visited env (f a) := by
  induction r generalizing s with
  | done outcome =>
    cases outcome with
    | ok a => exact Or.inr ⟨a, s, rfl, h⟩
    | error e => exact Or.inl h
  | ask q next ih =>
    rcases List.mem_cons.mp h with rfl | h
    · exact Or.inl List.mem_cons_self
    · exact (ih _ h).imp_left (List.mem_cons_of_mem _)

/-- An attempt goes through the states of the routine. -/
theorem visited_attempt (env : Surroundings) (s : Session) (r : Routine α) : s.visited env r.attempt = s.visited env r := by
  induction r generalizing s with
  | done outcome => rfl
  | ask q next ih => rw [Routine.attempt, visited, visited, ih]

/-! ## Other pages -/

/-- A page other than the one with a title on a site. Without a central service both sites show the same pages. -/
def Elsewhere (s : Session) (site : Site) (title : String) (other : Site) (page : String) : Prop :=
  page ≠ title ∨ (other ≠ site ∧ s.central ≠ none)

/-- Two states of a session that show the same pages, but for the one with a title on a site. -/
structure Aside (site : Site) (title : String) (s t : Session) : Prop where
  central : t.central = none ↔ s.central = none
  text : ∀ other page, s.Elsewhere site title other page → t.text other page = s.text other page

theorem Aside.refl (site : Site) (title : String) (s : Session) : Aside site title s s :=
  ⟨Iff.rfl, fun _ _ _ => rfl⟩

theorem Aside.trans (hst : Aside site title s t) (htu : Aside site title t u) : Aside site title s u where
  central := htu.central.trans hst.central
  text other page h := (htu.text other page (h.imp_right (And.imp_right (mt hst.central.mp)))).trans (hst.text other page h)

/-- Where nothing has changed all other pages show the same texts, whichever page is left aside. -/
theorem Unchanged.aside (h : s.Unchanged t) (site : Site) (title : String) : Aside site title s t :=
  ⟨h.central_eq_none, fun other page _ => by rw [h.text]⟩

/-- An edit changes no text but that of its page. -/
theorem text_save_of_ne {service : Service} {edit : Edit} {page : String} (h : page ≠ edit.title) :
    (service.save edit).text page = service.text page := by
  cases hd : service.draft with
  | none => simp [Service.text, Service.save, hd, Wiki.text_save, Ne.symm h]
  | some draft => simp [Service.text, Service.save, hd, Wiki.save, Keyed.get?_put, Ne.symm h]

/-- A service for a site takes the place of another one that shows the same pages but for one of them. -/
theorem aside_withService {service : Service} (h : ∀ page, page ≠ title → service.text page = (s.service site).text page) :
    Aside site title s (s.withService site service) := by
  refine ⟨?_, fun other page helse => ?_⟩
  · rw [← Option.isNone_iff_eq_none, ← Option.isNone_iff_eq_none, ← Option.not_isSome, ← Option.not_isSome,
      isSome_central_withService]
  · rw [Session.text, service_withService_eq]
    split
    · next hshared =>
      have hpage : page ≠ title := helse.resolve_right fun hother => hshared.elim hother.1 hother.2
      rw [h page hpage, ← service_eq_of_shared hshared, Session.text]
    · rfl

/-- An attempt to save a page leaves all others as they are. -/
theorem aside_save (env : Surroundings) (s : Session) (site : Site) (edit : Edit) :
    Aside site edit.title s (s.save env site edit).2 := by
  have hsaved : Aside site edit.title s (s.withService site ((s.service site).save edit)) :=
    aside_withService fun page h => text_save_of_ne h
  unfold save
  simp only [call]
  split
  · cases env.outage s.calls (.save edit.title) with
    | none => exact ⟨hsaved.central, hsaved.text⟩
    | some message => exact ⟨Iff.rfl, fun _ _ _ => rfl⟩
  · exact ⟨hsaved.central, hsaved.text⟩

/-- A routine that leaves all pages but one as they are in every state on its way. -/
def Frame (site : Site) (title : String) (env : Surroundings) (s : Session) (r : Routine α) : Prop :=
  ∀ u ∈ s.visited env r, Aside site title s u

/-- A run that leaves the other pages alone on its way has done so in the end. -/
theorem Frame.run {r : Routine α} (h : Frame site title env s r) : Aside site title s (s.run env r).2 :=
  h _ (run_mem_visited env s r)

/-- Two parts leave the other pages alone if the first one does and the second one does from wherever the first one ends. -/
theorem Frame.bind {r : Routine α} {f : α → Routine β} (hr : Frame site title env s r)
    (hf : ∀ a t, s.run env r = (.ok a, t) → Frame site title env t (f a)) : Frame site title env s (r >>= f) := by
  intro u hu
  rcases mem_visited_bind hu with hu | ⟨a, t, hrun, hu⟩
  · exact hr u hu
  · have ht := hr.run
    rw [hrun] at ht
    exact ht.trans (hf a t hrun u hu)

/-- A routine leaves the other pages alone where its failure is caught. -/
theorem Frame.attempt {r : Routine α} (h : Frame site title env s r) : Frame site title env s r.attempt := by
  rw [Frame, visited_attempt]
  exact h

/-- A query leaves the other pages alone if its answer does. -/
theorem Frame.query {q : Query} (h : Aside site title s (s.answer env q).2) : Frame site title env s (Routine.query q) := by
  intro u hu
  rcases List.mem_cons.mp hu with rfl | hu
  · exact .refl _ _ _
  · rw [List.mem_singleton.mp hu]
    exact h

/-- A routine that makes no call leaves all other pages alone. -/
theorem Frame.of_quiet {r : Routine α} (h : r.Quiet) : Frame site title env s r := by
  induction h generalizing s with
  | done outcome =>
    intro u hu
    rw [List.mem_singleton.mp hu]
    exact .refl _ _ _
  | ask hq _ ih =>
    intro u hu
    rcases List.mem_cons.mp hu with rfl | hu
    · exact .refl _ _ _
    · exact ((unchanged_answer hq env s).aside _ _).trans (ih _ u hu)

end Session

/-! ## Keys -/

namespace Query

/-- Whether a query is about a key. -/
def isAboutKey : Query → Bool
  | .acquire _ => true
  | .release _ => true
  | _ => false

end Query

namespace Routine

variable {α β : Type} {held now mid : List String}

/-- A routine that neither asks for a key nor gives one back, whatever it is answered. -/
inductive Keyless : Routine α → Prop where
  | done (outcome : Except Failure α) : Keyless (.done outcome)
  | ask {q : Query} {next : q.Answer → Routine α} (hq : q.isAboutKey = false) (hnext : ∀ a, Keyless (next a)) : Keyless (.ask q next)

namespace Keyless

/-- A query that is not about a key is a routine that asks for none. -/
theorem query {q : Query} (hq : q.isAboutKey = false) : Keyless (Routine.query q) :=
  .ask hq fun a => .done (.ok a)

/-- Writing notes asks for no key. -/
theorem notes (ns : List Note) : Keyless (Routine.notes ns) := by
  induction ns with
  | nil => exact .done (.ok ())
  | cons n ns ih => exact .ask rfl fun _ => ih

/-- Two parts in sequence ask for no key if neither of them does. -/
theorem bind {r : Routine α} {f : α → Routine β} (hr : Keyless r) (hf : ∀ a, Keyless (f a)) : Keyless (r >>= f) := by
  induction hr with
  | done outcome =>
    cases outcome with
    | ok a => exact hf a
    | error e => exact .done (.error e)
  | ask hq _ ih => exact .ask hq ih

/-- A routine that asks for no key asks for none where its failure is caught. -/
theorem attempt {r : Routine α} (hr : Keyless r) : Keyless r.attempt := by
  induction hr with
  | done outcome => exact .done (.ok outcome)
  | ask hq _ ih => exact .ask hq ih

end Keyless

/-- A routine that starts with some keys, never asks for one that it holds, whatever it is answered, and ends with given keys. -/
inductive Keeps (held : List String) : List String → Routine α → Prop where
  | done (outcome : Except Failure α) : Keeps held held (.done outcome)
  | ask {now : List String} {q : Query} {next : q.Answer → Routine α} (hq : q.isAboutKey = false)
      (hnext : ∀ a, Keeps held now (next a)) : Keeps held now (.ask q next)
  | acquire {now : List String} {key : String} {next : Unit → Routine α} (free : Lock.keyOf key ∉ now)
      (hnext : Keeps held (Lock.keyOf key :: now) (next ())) : Keeps held now (.ask (.acquire key) next)
  | release {now : List String} {key : String} {next : Unit → Routine α}
      (hnext : Keeps held (now.erase (Lock.keyOf key)) (next ())) : Keeps held now (.ask (.release key) next)

/-- A routine that asks for no key holds what it held. -/
theorem Keyless.keeps {r : Routine α} (h : Keyless r) : Keeps held held r := by
  induction h with
  | done outcome => exact .done outcome
  | ask hq _ ih => exact .ask hq ih

namespace Keeps

/-- A routine that keeps its keys does so with more to follow, if that keeps them, too. -/
theorem bind {r : Routine α} {f : α → Routine β} (hr : Keeps held now r) (hf : ∀ a, Keeps held held (f a)) :
    Keeps held now (r >>= f) := by
  induction hr with
  | done outcome =>
    cases outcome with
    | ok a => exact hf a
    | error e => exact .done (.error e)
  | ask hq _ ih => exact .ask hq ih
  | acquire free _ ih => exact .acquire free ih
  | release _ ih => exact .release ih

/-- What follows an attempt is carried out whether the attempt fails or not. -/
theorem attempt_bind {r : Routine α} {f : Except Failure α → Routine β} (hr : Keeps mid now r)
    (hf : ∀ outcome, Keeps held mid (f outcome)) : Keeps held now (r.attempt >>= f) := by
  induction hr with
  | done outcome => exact hf outcome
  | ask hq _ ih => exact .ask hq ih
  | acquire free _ ih => exact .acquire free ih
  | release _ ih => exact .release ih

end Keeps

end Routine

end UserScripts
