import UserScripts.Session

/-!
# Facts about runs

What a run does to the pages of a session. A routine that neither reads nor saves leaves the wikis alone, reading a page changes
no text, and saving an edit either fails and changes nothing or changes the text of its page as the edit says. Main statements:
`Routine.Quiet.run_text`, `read_text`, `save_text` and `run_bind_ok`.
-/

namespace UserScripts

namespace Query

/-- Whether a query leaves the wikis alone. -/
def isQuiet : Query → Bool
  | .read _ _ => false
  | .save _ _ => false
  | _ => true

end Query

namespace Routine

variable {α β : Type}

/-- A routine that neither reads nor saves a page, whatever it is answered. -/
inductive Quiet : Routine α → Prop where
  | done (outcome : Except Failure α) : Quiet (.done outcome)
  | ask {q : Query} {next : q.Answer → Routine α} (hq : q.isQuiet = true) (hnext : ∀ a, Quiet (next a)) : Quiet (.ask q next)

namespace Quiet

/-- A value at hand needs no call. -/
theorem pure (a : α) : Quiet (Pure.pure a : Routine α) :=
  .done _

/-- An outcome at hand needs no call. -/
theorem ofExcept (outcome : Except Failure α) : Quiet (Routine.ofExcept outcome) :=
  .done outcome

/-- A query that leaves the wikis alone is a routine that does. -/
theorem query {q : Query} (hq : q.isQuiet = true) : Quiet (Routine.query q) :=
  .ask hq fun a => .done (.ok a)

/-- Two parts in sequence make no call if neither of them does. -/
theorem bind {r : Routine α} {f : α → Routine β} (hr : Quiet r) (hf : ∀ a, Quiet (f a)) : Quiet (r >>= f) := by
  induction hr with
  | done outcome =>
    cases outcome with
    | ok a => exact hf a
    | error e => exact .done (.error e)
  | ask hq _ ih => exact .ask hq ih

/-- A routine that makes no call makes none where its failure is caught. -/
theorem attempt {r : Routine α} (hr : Quiet r) : Quiet r.attempt := by
  induction hr with
  | done outcome => exact .done (.ok outcome)
  | ask hq _ ih => exact .ask hq ih

/-- Writing notes makes no call. -/
theorem notes (ns : List Note) : Quiet (Routine.notes ns) := by
  induction ns with
  | nil => exact .done (.ok ())
  | cons n ns ih => exact .ask rfl fun _ => ih

/-- Routines that make no call make none one after the other, their failures caught. -/
theorem attemptAll {rs : List (Routine α)} (h : ∀ r ∈ rs, Quiet r) : Quiet (Routine.attemptAll rs) := by
  induction rs with
  | nil => exact Quiet.pure []
  | cons r rs ih =>
    have hrest := ih fun r' hr' => h r' (List.mem_cons_of_mem _ hr')
    exact (h r List.mem_cons_self).attempt.bind fun _ => hrest.bind fun _ => Quiet.pure _

/-- Carrying out all of some quiet routines is quiet. -/
theorem all {rs : List (Routine α)} (h : ∀ r ∈ rs, Quiet r) : Quiet (Routine.all rs) :=
  (Quiet.attemptAll h).bind fun _ => Quiet.ofExcept _

end Quiet

end Routine

namespace Session

variable {α β : Type}

/-- The text of a page of a site as the session shows it. -/
def text (s : Session) (site : Site) (title : String) : String :=
  (s.service site).text title

/-! ## Steps of a run -/

/-- A run whose outcome is known ends in some state. -/
theorem exists_run_ok {env : Surroundings} {s : Session} {r : Routine α} {a : α} (h : (s.run env r).1 = .ok a) :
    ∃ t, s.run env r = (.ok a, t) := by
  rw [← h]
  exact ⟨_, rfl⟩

/-- A sequence that ends well has carried out its first part and then its second part. -/
theorem run_bind_ok {env : Surroundings} {s t : Session} {r : Routine α} {f : α → Routine β} {b : β}
    (h : s.run env (r >>= f) = (.ok b, t)) : ∃ a u, s.run env r = (.ok a, u) ∧ u.run env (f a) = (.ok b, t) := by
  rw [run_bind] at h
  split at h
  · next a u hr => exact ⟨a, u, hr, h⟩
  · next e u hr => cases h

/-- A sequence that fails has failed in its first part, or in its second part after the first one. -/
theorem run_bind_error {env : Surroundings} {s t : Session} {r : Routine α} {f : α → Routine β} {e : Failure}
    (h : s.run env (r >>= f) = (.error e, t)) :
    s.run env r = (.error e, t) ∨ ∃ a u, s.run env r = (.ok a, u) ∧ u.run env (f a) = (.error e, t) := by
  rw [run_bind] at h
  split at h
  · next a u hr => exact Or.inr ⟨a, u, hr, h⟩
  · next e' u hr =>
    obtain ⟨he, rfl⟩ := Prod.mk.inj h
    exact Or.inl (by rw [hr, Except.error.inj he])

/-! ## Texts after queries -/

/-- The service that replaces another one is found on its site. -/
theorem service_withService (s : Session) (site : Site) (service : Service) : (s.withService site service).service site = service := by
  cases site with
  | home => rfl
  | central => cases hc : s.central <;> simp [withService, Session.service, hc]

/-- A service that shows the same texts can take the place of the one for a site. -/
theorem text_withService {s : Session} {site : Site} {service : Service} (h : ∀ title, service.text title = (s.service site).text title)
    (other : Site) (title : String) : (s.withService site service).text other title = s.text other title := by
  cases site with
  | home =>
    cases other with
    | home => exact h title
    | central =>
      cases hc : s.central with
      | none => simpa [text, withService, Session.service, hc] using h title
      | some c => simp [text, withService, Session.service, hc]
  | central =>
    cases other with
    | home =>
      cases hc : s.central with
      | none => simpa [text, withService, Session.service, hc] using h title
      | some c => simp [text, withService, Session.service, hc]
    | central =>
      cases hc : s.central with
      | none => simpa [text, withService, Session.service, hc] using h title
      | some c => simpa [text, withService, Session.service, hc] using h title

/-- A query that leaves the wikis alone changes no service. -/
theorem service_answer {q : Query} (hq : q.isQuiet = true) (env : Surroundings) (s : Session) :
    (s.answer env q).2.service = s.service := by
  cases q <;> first | rfl | nomatch hq

/-- A quiet routine changes no service. -/
theorem service_run {r : Routine α} (h : r.Quiet) (env : Surroundings) (s : Session) : (s.run env r).2.service = s.service := by
  induction h generalizing s with
  | done outcome => rfl
  | ask hq _ ih => rw [run_ask, ih, service_answer hq]

/-- A quiet routine changes no text. -/
theorem text_run {r : Routine α} (h : r.Quiet) (env : Surroundings) (s : Session) : (s.run env r).2.text = s.text := by
  funext site title
  rw [text, service_run h, text]

/-- Reading a page changes no text. -/
theorem text_read (env : Surroundings) (s : Session) (site : Site) (title : String) (other : Site) (page : String) :
    (s.read env site title).2.text other page = s.text other page := by
  have hseen : (s.withService site ((s.service site).read title)).text other page = s.text other page :=
    text_withService (fun p => Service.text_read _ title p) other page
  unfold read
  simp only [call]
  split
  · cases env.outage s.calls (.read title) with
    | none => exact hseen
    | some message => rfl
  · exact hseen

/-- A sequence that ends well and starts with a quiet routine goes on with the same services. -/
theorem run_bind_ok_of_quiet {env : Surroundings} {s t : Session} {r : Routine α} {f : α → Routine β} {b : β} (hr : r.Quiet)
    (h : s.run env (r >>= f) = (.ok b, t)) :
    ∃ a u, s.run env r = (.ok a, u) ∧ u.service = s.service ∧ u.run env (f a) = (.ok b, t) := by
  obtain ⟨a, u, ha, hu⟩ := run_bind_ok h
  have hservice := service_run hr env s
  rw [ha] at hservice
  exact ⟨a, u, ha, hservice, hu⟩

/-- A sequence that ends well and starts with an outcome goes on from the value of the outcome. -/
theorem run_ofExcept_bind_ok {env : Surroundings} {s t : Session} {outcome : Except Failure α} {f : α → Routine β} {b : β}
    (h : s.run env (Routine.ofExcept outcome >>= f) = (.ok b, t)) : ∃ a, outcome = .ok a ∧ s.run env (f a) = (.ok b, t) := by
  cases outcome with
  | error e => cases h
  | ok a => exact ⟨a, rfl, h⟩

/-- A value at hand is what a run comes to, at once. -/
theorem run_pure_ok {env : Surroundings} {s t : Session} {a b : α} (h : s.run env (pure a) = (.ok b, t)) : a = b ∧ s = t := by
  obtain ⟨h₁, h₂⟩ := Prod.mk.inj h
  exact ⟨Except.ok.inj h₁, h₂⟩

/-- What is read is the text of the page. -/
theorem read_ok {env : Surroundings} {s : Session} {site : Site} {title page : String} (h : (s.read env site title).1 = .ok page) :
    page = s.text site title := by
  unfold read at h
  simp only [call] at h
  split at h
  · cases ho : env.outage s.calls (.read title) with
    | none => rw [ho] at h; exact (Except.ok.inj h).symm
    | some message => rw [ho] at h; nomatch h
  · exact (Except.ok.inj h).symm

/-- Whether an edit of a page changes the text that the service shows: a draft has to hold the page. -/
def Held (s : Session) (site : Site) (title : String) : Prop :=
  ∀ draft ∈ (s.service site).draft, (draft.pages.get? title).isSome = true

/-- A service holds a page that has been read through it. -/
theorem held_of_read {service : Service} {title : String} :
    ∀ draft ∈ (service.read title).draft, (draft.pages.get? title).isSome = true := by
  intro draft hd
  unfold Service.read at hd
  cases hs : service.draft with
  | none => simp [hs] at hd
  | some d =>
    simp only [hs] at hd
    split at hd
    · next hp =>
      rw [hs, Option.mem_some_iff] at hd
      rw [← hd, hp]
    · rw [Option.mem_some_iff] at hd
      rw [← hd, Wiki.overwrite, Keyed.get?_put_self]
      rfl

/-- A page that has been read is held. -/
theorem held_read {env : Surroundings} {s : Session} {site : Site} {title page : String}
    (h : (s.read env site title).1 = .ok page) : (s.read env site title).2.Held site title := by
  have hseen : ∀ draft ∈ ((s.withService site ((s.service site).read title)).service site).draft,
      (draft.pages.get? title).isSome = true := by
    rw [service_withService]
    exact held_of_read
  unfold read at h ⊢
  simp only [call] at h ⊢
  split at h
  · next ha =>
    rw [if_pos ha]
    cases ho : env.outage s.calls (.read title) with
    | none => exact hseen
    | some message => rw [ho] at h; nomatch h
  · next ha =>
    rw [if_neg ha]
    exact hseen

/-- An edit that fails changes nothing. -/
theorem save_error {env : Surroundings} {s : Session} {site : Site} {edit : Edit} {e : Failure}
    (h : (s.save env site edit).1 = .error e) : (s.save env site edit).2.service = s.service := by
  unfold save at h ⊢
  simp only [call] at h ⊢
  split at h
  · next hd =>
    rw [if_pos hd]
    cases ho : env.outage s.calls (.save edit.title) with
    | none => rw [ho] at h; nomatch h
    | some message => rfl
  · nomatch h

/-- A service that holds a page shows the page as the edit makes it. -/
theorem text_save_of_held {service : Service} {edit : Edit}
    (h : ∀ draft ∈ service.draft, (draft.pages.get? edit.title).isSome = true) :
    (service.save edit).text edit.title = edit.change.apply (service.text edit.title) := by
  cases hd : service.draft with
  | none =>
    simp only [Service.save, Service.text, hd]
    rw [Wiki.text_save, if_pos rfl]
  | some draft =>
    obtain ⟨held, hp⟩ := Option.isSome_iff_exists.mp (h draft hd)
    simp [Service.save, Service.text, hd, Wiki.save, Wiki.text, hp]

/-- An edit of a page that is held changes its text as it says. -/
theorem save_ok {env : Surroundings} {s : Session} {site : Site} {edit : Edit} (held : s.Held site edit.title)
    (h : (s.save env site edit).1 = .ok ()) :
    (s.save env site edit).2.text site edit.title = edit.change.apply (s.text site edit.title) := by
  have hsaved : (s.withService site ((s.service site).save edit)).text site edit.title =
      edit.change.apply (s.text site edit.title) := by
    rw [text, service_withService]
    exact text_save_of_held held
  unfold save at h ⊢
  simp only [call] at h ⊢
  split at h
  · next hd =>
    rw [if_pos hd]
    cases ho : env.outage s.calls (.save edit.title) with
    | none => exact hsaved
    | some message => rw [ho] at h; nomatch h
  · next hd =>
    rw [if_neg hd]
    exact hsaved

end Session

end UserScripts
