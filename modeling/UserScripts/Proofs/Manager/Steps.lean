import Mathlib.Data.List.Forall2
import UserScripts.Manager.Basic
import UserScripts.Proofs.Session.Run

/-!
# The steps of the manager

What the steps of which operations are made do to the page of a target when they are carried out. Fetching and looking things up
change no text. A change that is saved makes the page what it says, and one that cannot be saved leaves it as it was. Main
statements: `fetch_ok`, `submit_ok`, `commit_ok`, and `Careful`, the routines that change nothing unless they succeed.
-/

namespace UserScripts

open UserScripts.Text

namespace Routine

variable {α β : Type}

/-- A routine that changes no text of any page. -/
def Reads (r : Routine α) : Prop :=
  ∀ env (s : Session), (s.run env r).2.text = s.text

/-- A routine that changes no text of any page if it fails. -/
def Careful (r : Routine α) : Prop :=
  ∀ env (s t : Session) (e : Failure), s.run env r = (.error e, t) → t.text = s.text

/-- A routine that makes no call changes no page. -/
theorem Quiet.reads {r : Routine α} (h : Quiet r) : Reads r :=
  fun env s => Session.text_run h env s

/-- A routine that changes no page changes none if it fails. -/
theorem Reads.careful {r : Routine α} (h : Reads r) : Careful r := by
  intro env s t e hr
  have := h env s
  rwa [hr] at this

/-- A sequence is careful if its first part only reads. -/
theorem Reads.bind_careful {r : Routine α} {f : α → Routine β} (hr : Reads r) (hf : ∀ a, Careful (f a)) : Careful (r >>= f) := by
  intro env s t e h
  rcases Session.run_bind_error h with h | ⟨a, u, h, hu⟩
  · exact hr.careful env s t e h
  · have hs := hr env s
    rw [h] at hs
    exact (hf a env u t e hu).trans hs

/-- Nothing that follows a careful routine can spoil it if it cannot fail. -/
theorem Careful.bind_pure {r : Routine α} (h : Careful r) (f : α → β) : Careful (r >>= fun a => pure (f a)) := by
  intro env s t e hr
  rcases Session.run_bind_error hr with hr | ⟨a, u, -, hu⟩
  · exact h env s t e hr
  · cases hu

/-- The outcomes of attempts come from runs of the routines one by one. -/
theorem attemptAll_ok {env : Surroundings} {s t : Session} {rs : List (Routine α)} {outcomes : List (Except Failure α)}
    (h : s.run env (attemptAll rs) = (.ok outcomes, t)) :
    List.Forall₂ (fun r outcome => ∃ u u', Session.run env u r = (outcome, u')) rs outcomes := by
  induction rs generalizing s t outcomes with
  | nil =>
    rw [← Except.ok.inj (Prod.mk.inj h).1]
    exact .nil
  | cons r rs ih =>
    obtain ⟨first, u₁, hfirst, h⟩ := Session.run_bind_ok h
    obtain ⟨others, u₂, hothers, h⟩ := Session.run_bind_ok h
    rw [← Except.ok.inj (Prod.mk.inj h).1]
    refine .cons ⟨s, u₁, ?_⟩ (ih hothers)
    rw [Session.run_attempt] at hfirst
    obtain ⟨h₁, h₂⟩ := Prod.mk.inj hfirst
    exact Prod.ext (Except.ok.inj h₁) h₂

/-- Outcomes that all come to a value are these values. -/
theorem eq_map_ok_of_mapM {outcomes : List (Except Failure α)} {vs : List α} (h : outcomes.mapM id = .ok vs) :
    outcomes = vs.map .ok := by
  induction outcomes generalizing vs with
  | nil =>
    rw [← Except.ok.inj h]
    rfl
  | cons outcome outcomes ih =>
    rw [List.mapM_cons] at h
    cases outcome with
    | error e => cases h
    | ok v =>
      cases ho : outcomes.mapM id with
      | error e => rw [ho] at h; cases h
      | ok vs' =>
        rw [ho] at h
        rw [← Except.ok.inj h, ih ho]
        rfl

/-- The values of a list of routines come from runs of the routines one by one. -/
theorem all_ok {env : Surroundings} {s t : Session} {rs : List (Routine α)} {vs : List α}
    (h : s.run env (all rs) = (.ok vs, t)) : List.Forall₂ (fun r v => ∃ u u', Session.run env u r = (.ok v, u')) rs vs := by
  obtain ⟨outcomes, u, hout, h⟩ := Session.run_bind_ok h
  rw [eq_map_ok_of_mapM (Prod.mk.inj h).1] at hout
  exact List.forall₂_map_right_iff.mp (attemptAll_ok hout)

end Routine

namespace Manager

open Routine

/-- The text of the page of a target. -/
def pageText (m : Manager) (s : Session) (target : String) : String :=
  s.text (m.siteOf target) (m.settings.targetTitle target)

/-- The lines of the page of a target. -/
def pageLines (m : Manager) (s : Session) (target : String) : List String :=
  lines (m.pageText s target)

/-- A page is its lines. -/
theorem unlines_pageLines (m : Manager) (s : Session) (target : String) : unlines (m.pageLines s target) = m.pageText s target :=
  unlines_lines _

/-- Sessions in which pages show the same show the same for every target. -/
theorem pageText_of_text {m : Manager} {s t : Session} (h : t.text = s.text) (target : String) :
    m.pageText t target = m.pageText s target := by
  rw [pageText, h, pageText]

/-! ## Holding a key -/

/-- A key does not matter to a routine that runs alone. -/
theorem run_holding {α : Type} (env : Surroundings) (s : Session) (key : String) (r : Routine α) :
    s.run env (holding key r) = s.run env r := by
  have hrun : s.run env (holding key r) = ((s.run env r).1, (s.run env r).2) := by
    rw [holding, Session.run_bind, Session.run_query]
    simp only [Session.answer]
    rw [Session.run_bind, Session.run_attempt]
    rfl
  exact hrun

/-- The lock makes no difference to a run on its own. -/
theorem run_locked {α : Type} (env : Surroundings) (s : Session) (e : Entry) (r : Routine α) :
    s.run env (locked e r) = s.run env r :=
  run_holding env s _ r

/-- A routine that changes no page if it fails does so under a key, too. -/
theorem careful_holding {α : Type} {key : String} {r : Routine α} (h : Careful r) : Careful (holding key r) := by
  intro env s t e hr
  rw [run_holding] at hr
  exact h env s t e hr

/-! ## Reading -/

/-- A message makes no call. -/
theorem quiet_say (gravity : Gravity) (text : String) : Quiet (say gravity text) :=
  .query rfl

/-- Reading a page changes none. -/
theorem reads_read (site : Site) (title : String) : Reads (Routine.query (.read site title)) := by
  intro env s
  funext other page
  exact Session.text_read env s site title other page

/-- What is done after a page has been read. -/
theorem quiet_after_read (target : String) (outcome : Except Failure String) : Quiet (do
    let text ← Routine.ofExcept outcome
    Routine.query (.remember target text)
    return lines text) :=
  (Quiet.ofExcept outcome).bind fun _ => (Quiet.query rfl).bind fun _ => Quiet.pure _

/-- Fetching a page changes no text. -/
theorem reads_fetch (m : Manager) (target : String) : Reads (m.fetch target) := by
  intro env s
  have hread := reads_read (m.siteOf target) (m.settings.targetTitle target) env s
  rw [fetch, Session.run_bind, Session.run_query]
  rw [Session.run_query] at hread
  exact (Session.text_run (quiet_after_read target _) env _).trans hread

/-- What is fetched are the lines of the page, which the session holds from then on. -/
theorem fetch_ok {m : Manager} {target : String} {env : Surroundings} {s t : Session} {page : List String}
    (h : s.run env (m.fetch target) = (.ok page, t)) :
    page = m.pageLines s target ∧ t.text = s.text ∧ t.Held (m.siteOf target) (m.settings.targetTitle target) := by
  have htext := reads_fetch m target env s
  rw [h] at htext
  obtain ⟨outcome, u, hread, h⟩ := Session.run_bind_ok h
  obtain ⟨text, u', hout, h⟩ := Session.run_bind_ok h
  rw [Session.run_query] at hread
  obtain ⟨hanswer, hu⟩ := Prod.mk.inj hread
  obtain ⟨rfl, rfl⟩ : outcome = .ok text ∧ u = u' := Prod.mk.inj hout
  have hok : (s.read env (m.siteOf target) (m.settings.targetTitle target)).1 = .ok text := Except.ok.inj hanswer
  have hheld : u.Held (m.siteOf target) (m.settings.targetTitle target) := by
    rw [← hu]
    exact Session.held_read hok
  have hquiet : Quiet (do
      Routine.query (.remember target text)
      return lines text) := (Quiet.query rfl).bind fun _ => Quiet.pure _
  have hservice := Session.service_run hquiet env u
  rw [h] at hservice
  refine ⟨?_, htext, ?_⟩
  · rw [pageLines, pageText, ← Session.read_ok hok]
    exact (Except.ok.inj (Prod.mk.inj h).1).symm
  · rw [Session.Held, hservice]
    exact hheld

/-! ## Looking things up -/

/-- An entry as it was, or with the link title of its documentation. -/
def Annotated (e e' : Entry) : Prop :=
  e' = e ∨ ∃ title, e' = e.withDocLink title

/-- Annotating an entry leaves its target. -/
theorem Annotated.target {e e' : Entry} (h : Annotated e e') : e'.target = e.target := by
  rcases h with rfl | ⟨title, rfl⟩ <;> rfl

/-- Looking up documentation makes no call. -/
theorem quiet_documentation (m : Manager) (e : Entry) : Quiet (m.documentation? e) := by
  unfold documentation?
  cases Documentation.lookup? e m.settings with
  | none => exact Quiet.pure none
  | some found =>
    obtain ⟨host, page⟩ := found
    refine (Quiet.query rfl).bind fun answer => ?_
    cases answer with
    | error reason => exact (Quiet.query rfl).bind fun _ => Quiet.pure _
    | ok text =>
      simp only
      cases Documentation.reference? (Documentation.header m.settings.docScanLimit text) with
      | none => exact Quiet.pure none
      | some reference =>
        refine (Quiet.ofExcept _).bind fun title => ?_
        exact (Quiet.query rfl).bind fun _ => Quiet.pure title

/-- Annotating an entry makes no call. -/
theorem quiet_annotate (m : Manager) (e : Entry) : Quiet (m.annotate e) := by
  unfold annotate
  split
  · exact Quiet.pure e
  · refine (quiet_documentation m e).bind fun title => ?_
    cases given title with
    | none => exact Quiet.pure e
    | some title => exact Quiet.pure _

/-- Only the documentation link of an entry is looked up. -/
theorem annotate_ok {m : Manager} {e e' : Entry} {env : Surroundings} {s t : Session}
    (h : s.run env (m.annotate e) = (.ok e', t)) : Annotated e e' := by
  unfold annotate at h
  split at h
  · exact Or.inl (Except.ok.inj (Prod.mk.inj h).1).symm
  · obtain ⟨title, u, -, h⟩ := Session.run_bind_ok h
    cases hg : given title with
    | none =>
      rw [hg] at h
      exact Or.inl (Except.ok.inj (Prod.mk.inj h).1).symm
    | some title =>
      rw [hg] at h
      exact Or.inr ⟨title, (Except.ok.inj (Prod.mk.inj h).1).symm⟩

/-- Finding a script on a page that is at hand makes no call. -/
theorem quiet_isInstalled (m : Manager) (page : List String) (e : Entry) : Quiet (m.isInstalled page e) :=
  (Quiet.notes _).bind fun _ => Quiet.ofExcept _

/-- What the manager finds on a page is what the page says. -/
theorem isInstalled_ok {m : Manager} {page : List String} {e : Entry} {b : Bool} {env : Surroundings} {s t : Session}
    (h : s.run env (m.isInstalled page e) = (.ok b, t)) : Page.isInstalled page e m.settings = .ok b := by
  obtain ⟨_, u, -, h⟩ := Session.run_bind_ok h
  have hout : Failure.ofUrl (Page.isInstalled page e m.settings) = .ok b := (Prod.mk.inj h).1
  cases hi : Page.isInstalled page e m.settings with
  | error malformed => rw [hi] at hout; cases hout
  | ok found => rw [hi] at hout; rw [Except.ok.inj hout]

/-! ## Saving -/

/-- What is done after an attempt to save. -/
theorem quiet_after_save (m : Manager) (target summary : String) (outcome : Except Failure Unit) : Quiet (do
    Routine.query (.forget (some target))
    Routine.ofExcept outcome
    say .info ("Edited " ++ m.settings.targetTitle target ++ ": " ++ summary)) :=
  (Quiet.query rfl).bind fun _ => (Quiet.ofExcept outcome).bind fun _ => quiet_say _ _

/-- A submission fails if and only if its edit cannot be saved. -/
theorem run_submit_fst (m : Manager) (target summary : String) (change : Change) (env : Surroundings) (s : Session) :
    (s.run env (m.submit target summary change)).1 =
      (s.save env (m.siteOf target) ⟨m.settings.targetTitle target, summary, change⟩).1 := by
  rw [submit, Session.run_bind, Session.run_query]
  simp only [Session.answer]
  cases (s.save env (m.siteOf target) ⟨m.settings.targetTitle target, summary, change⟩).1 <;> rfl

/-- After a submission the wikis are as the attempt to save has left them. -/
theorem text_run_submit (m : Manager) (target summary : String) (change : Change) (env : Surroundings) (s : Session) :
    (s.run env (m.submit target summary change)).2.text =
      (s.save env (m.siteOf target) ⟨m.settings.targetTitle target, summary, change⟩).2.text := by
  rw [submit, Session.run_bind, Session.run_query]
  exact Session.text_run (quiet_after_save m target summary _) env _

/-- A change that is submitted makes the page of the target what it says. -/
theorem submit_ok {m : Manager} {target summary : String} {change : Change} {env : Surroundings} {s t : Session}
    (held : s.Held (m.siteOf target) (m.settings.targetTitle target))
    (h : s.run env (m.submit target summary change) = (.ok (), t)) :
    m.pageText t target = change.apply (m.pageText s target) := by
  have hsave := run_submit_fst m target summary change env s
  have htext := text_run_submit m target summary change env s
  rw [h] at hsave htext
  rw [pageText, htext]
  exact Session.save_ok held hsave.symm

/-- A change that cannot be submitted changes nothing. -/
theorem careful_submit (m : Manager) (target summary : String) (change : Change) : Careful (m.submit target summary change) := by
  intro env s t e h
  have hsave := run_submit_fst m target summary change env s
  have htext := text_run_submit m target summary change env s
  rw [h] at hsave htext
  rw [htext]
  funext site title
  rw [Session.text, Session.save_error hsave.symm, Session.text]

/-- After new lines have been committed the page of the target consists of them; an edit has been saved if that is a change. -/
theorem commit_ok {m : Manager} {target summary : String} {new : List String} {b : Bool} {env : Surroundings} {s t : Session}
    (held : s.Held (m.siteOf target) (m.settings.targetTitle target))
    (h : s.run env (m.commit target summary (m.pageLines s target) new) = (.ok b, t)) :
    m.pageText t target = unlines new ∧ (b = true ↔ m.pageText s target ≠ unlines new) := by
  unfold commit at h
  rw [unlines_pageLines] at h
  split at h
  · next hsame =>
    obtain ⟨_, u, hsay, h⟩ := Session.run_bind_ok h
    have htext := Session.text_run (quiet_say .debug ("No changes on " ++ m.settings.targetTitle target)) env s
    rw [hsay] at htext
    obtain ⟨hb, rfl⟩ := Prod.mk.inj h
    refine ⟨(pageText_of_text htext target).trans hsame, ?_⟩
    rw [← Except.ok.inj hb]
    simp [hsame]
  · next hdiff =>
    obtain ⟨_, u, hsubmit, h⟩ := Session.run_bind_ok h
    obtain ⟨hb, rfl⟩ := Prod.mk.inj h
    refine ⟨submit_ok held hsubmit, ?_⟩
    rw [← Except.ok.inj hb]
    simp [hdiff]

/-- Lines that cannot be committed change nothing. -/
theorem careful_commit (m : Manager) (target summary : String) (old new : List String) :
    Careful (m.commit target summary old new) := by
  unfold commit
  split
  · exact ((quiet_say _ _).bind fun _ => Quiet.pure false).reads.careful
  · exact (careful_submit m target summary _).bind_pure fun _ => true

end Manager

end UserScripts
