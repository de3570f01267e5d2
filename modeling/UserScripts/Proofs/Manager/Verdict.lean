import UserScripts.Proofs.Manager.Move

/-!
# How a run is concluded

A run on a target fetches its page, works out the text that the page should have, and saves that text if it is another one. Nothing
between fetching and saving calls a wiki, so whatever is worked out meets the same wiki: what a run comes to, refused calls included,
is known from the fetched page and the text that is worked out. Main statements: `run_install_fst` and `run_normalize_fst`.
-/

namespace UserScripts

open UserScripts.Text

namespace Session

variable {α : Type} {env : Surroundings} {s t u : Session}

/-- A later state in which the next call to a wiki meets the same fate. -/
structure Level (s t : Session) : Prop where
  service : t.service = s.service
  calls : t.calls = s.calls

theorem Level.trans (hst : s.Level t) (htu : t.Level u) : s.Level u :=
  ⟨htu.service.trans hst.service, htu.calls.trans hst.calls⟩

/-- A query that makes no call is not counted as one. -/
theorem calls_answer {q : Query} (hq : q.isQuiet = true) (env : Surroundings) (s : Session) : (s.answer env q).2.calls = s.calls := by
  cases q <;> first | rfl | nomatch hq

/-- A quiet routine calls no wiki. -/
theorem level_run {r : Routine α} (h : r.Quiet) (env : Surroundings) (s : Session) : s.Level (s.run env r).2 := by
  refine ⟨service_run h env s, ?_⟩
  induction h generalizing s with
  | done outcome => rfl
  | ask hq _ ih => rw [run_ask, ih, calls_answer hq]

/-- Whether an edit can be saved does not depend on what it says. -/
theorem Level.save_fst (h : s.Level t) (env : Surroundings) (site : Site) (edit edit' : Edit) (htitle : edit'.title = edit.title) :
    (t.save env site edit').1 = (s.save env site edit).1 := by
  simp only [save, call, h.service, h.calls, htitle]
  split
  · cases env.outage s.calls (.save edit.title) <;> rfl
  · rfl

end Session

namespace Manager

open Routine

variable {α : Type} {m : Manager} {e : Entry} {target : String} {env : Surroundings} {s u v : Session} {page : List String}

/-- An annotated entry is a style sheet if the entry itself is one. -/
theorem Annotated.isCss {e' : Entry} (h : Annotated e e') : e'.isCss = e.isCss := by
  rcases h with rfl | ⟨title, rfl⟩ <;> rfl

/-- An annotated entry is as much disabled as the entry itself. -/
theorem Annotated.disabled {e' : Entry} (h : Annotated e e') : e'.disabled = e.disabled := by
  rcases h with rfl | ⟨title, rfl⟩ <;> rfl

/-- What annotating comes to is an annotated entry. -/
theorem annotated_ok {source : Sources} {e' : Entry} (h : m.annotated source e = .ok e') : Annotated e e' :=
  annotate_ok (show ({} : Session).run { source } (m.annotate e) = (.ok e', _) from Prod.ext h rfl)

/-- A sequence fails in its first part or in its second one. -/
theorem bind_eq_error {β : Type} {first : Except Failure α} {rest : α → Except Failure β} {failure : Failure} :
    first >>= rest = .error failure ↔ first = .error failure ∨ ∃ a, first = .ok a ∧ rest a = .error failure := by
  refine ⟨bind_error, ?_⟩
  rintro (rfl | ⟨a, rfl, h⟩)
  · rfl
  · exact h

/-- A sequence comes to a value if both of its parts do. -/
theorem bind_eq_ok {β : Type} {first : Except Failure α} {rest : α → Except Failure β} {b : β} :
    first >>= rest = .ok b ↔ ∃ a, first = .ok a ∧ rest a = .ok b := by
  cases first with
  | error failure => exact iff_of_false (fun h => by cases h) fun ⟨_, h, _⟩ => by cases h
  | ok a =>
    refine ⟨fun h => ⟨a, rfl, h⟩, ?_⟩
    rintro ⟨a', ha, h⟩
    rwa [← Except.ok.inj ha] at h

/-- Two steps come to a value exactly if the first one does and the second one does from there. -/
theorem exists_bind_ok_iff {β : Type} {first : Except Failure α} {rest : α → Except Failure β} :
    (∃ b, first >>= rest = .ok b) ↔ ∃ a, first = .ok a ∧ ∃ b, rest a = .ok b := by
  simp only [bind_eq_ok]
  exact ⟨fun ⟨b, a, ha, hb⟩ => ⟨a, ha, b, hb⟩, fun ⟨a, ha, b, hb⟩ => ⟨b, a, ha, hb⟩⟩

/-- Whether a text of the page of a target can be saved. -/
def saving (m : Manager) (target : String) (env : Surroundings) (u : Session) : Except Failure Unit :=
  (u.save env (m.siteOf target) ⟨m.settings.targetTitle target, "", .replace ""⟩).1

/-- What comes of the text that the page of a target should have: it is saved if it is another one. -/
def conclude (m : Manager) (target : String) (env : Surroundings) (u : Session) (text : String) : Except Failure Bool :=
  if m.pageText u target = text then .ok false else (m.saving target env u).map fun _ => true

/-- What a run on a target comes to, of which a verdict on the text of its page says what should come of it. -/
def concluded (m : Manager) (target : String) (env : Surroundings) (s : Session) (verdict : Except Failure String) :
    Except Failure Bool := do
  let _ ← (s.run env (m.fetch target)).1
  verdict >>= m.conclude target env (s.run env (m.fetch target)).2

/-- A save fails only because the call is refused. -/
theorem saving_error {failure : Failure} (h : m.saving target env u = .error failure) :
    ∃ n message, env.outage n (.save (m.settings.targetTitle target)) = some message ∧ failure = .transport message := by
  unfold saving Session.save at h
  simp only [Session.call] at h
  split at h
  · cases ho : env.outage u.calls (.save (m.settings.targetTitle target)) with
    | none => rw [ho] at h; cases h
    | some message =>
      rw [ho] at h
      exact ⟨_, message, ho, (Except.error.inj h).symm⟩
  · cases h

/-- What comes of a text depends on the services and on the number of the next call alone. -/
theorem conclude_of_level (h : u.Level v) : m.conclude target env v = m.conclude target env u := by
  funext text
  rw [conclude, conclude, pageText_of_service h.service, saving, h.save_fst env _ _ _ rfl, saving]

/-- Submitting a change concludes with the text that it makes of the page. -/
theorem run_submit_conclude {summary text : String} {change : Change} (hdiff : m.pageText u target ≠ text) :
    (u.run env (m.submit target summary change >>= fun _ => pure true)).1 = m.conclude target env u text := by
  have hsubmit : (u.run env (m.submit target summary change)).1 = m.saving target env u :=
    (run_submit_fst m target summary change env u).trans ((⟨rfl, rfl⟩ : u.Level u).save_fst env _ _ _ rfl)
  rw [conclude, if_neg hdiff]
  cases hc : m.saving target env u with
  | error failure => rw [Session.run_bind_of_error (hsubmit.trans hc)]; rfl
  | ok a => rw [Session.run_bind_of_ok (hsubmit.trans hc)]; rfl

/-- A run that says that nothing has changed concludes with the text that is there. -/
theorem run_unchanged_conclude {r : Routine Unit} (hrun : (u.run env r).1 = .ok ()) :
    (u.run env (r >>= fun _ => pure false)).1 = m.conclude target env u (m.pageText u target) := by
  rw [Session.run_bind_of_ok hrun, conclude, if_pos rfl]
  rfl

/-- A commit concludes with the text of its new lines. -/
theorem run_commit_conclude {summary : String} {new : List String} (hpage : m.pageText u target = unlines page) :
    (u.run env (m.commit target summary page new)).1 = m.conclude target env u (unlines new) := by
  unfold commit
  split
  · next hsame =>
    rw [← hsame, ← hpage]
    exact run_unchanged_conclude rfl
  · next hdiff => exact run_submit_conclude (by rwa [hpage])

/-- A quiet part of which it is known what it comes to leaves the wiki to what follows as it is. -/
theorem run_quiet_bind_conclude {r : Routine α} {f : α → Routine Bool} {outcome : Except Failure α} {rest : α → Except Failure String}
    (hr : Quiet r) (hrun : (u.run env r).1 = outcome)
    (h : ∀ a v, outcome = .ok a → u.Level v → (v.run env (f a)).1 = rest a >>= m.conclude target env v) :
    (u.run env (r >>= f)).1 = (outcome >>= rest) >>= m.conclude target env u := by
  cases outcome with
  | error failure => rw [Session.run_bind_of_error hrun]; rfl
  | ok a =>
    have hlevel := Session.level_run hr env u
    rw [Session.run_bind_of_ok hrun, h a _ rfl hlevel, conclude_of_level hlevel]
    rfl

/-- Every operation starts by fetching the page of its target. -/
theorem run_fetch_bind_conclude {f : List String → Routine Bool} {verdict : Except Failure String}
    (h : ∀ u, m.pageText u target = m.pageText s target →
      (u.run env (f (m.pageLines s target))).1 = verdict >>= m.conclude target env u) :
    (s.run env (m.fetch target >>= f)).1 = m.concluded target env s verdict := by
  cases hfetch : s.run env (m.fetch target) with
  | mk outcome u =>
    cases outcome with
    | error failure =>
      rw [Session.run_bind_of_error (congrArg Prod.fst hfetch), concluded, hfetch]
      rfl
    | ok page =>
      obtain ⟨hpage, htext, -⟩ := fetch_ok hfetch
      rw [Session.run_bind_of_ok (congrArg Prod.fst hfetch), concluded, hfetch, hpage]
      exact h u (pageText_of_text htext target)

/-- A run on a target fails where its page cannot be fetched, where the verdict is a failure, and where another text of the page
cannot be saved. -/
theorem concluded_eq_error {verdict : Except Failure String} {failure : Failure} :
    m.concluded target env s verdict = .error failure ↔ (s.run env (m.fetch target)).1 = .error failure ∨
      ∃ page u, s.run env (m.fetch target) = (.ok page, u) ∧ (verdict = .error failure ∨
        ∃ text, verdict = .ok text ∧ m.pageText s target ≠ text ∧ m.saving target env u = .error failure) := by
  rw [concluded, bind_eq_error]
  refine or_congr Iff.rfl ?_
  simp only [bind_eq_error]
  constructor
  · rintro ⟨page, hpage, h⟩
    have hfetch : s.run env (m.fetch target) = (.ok page, _) := Prod.ext hpage rfl
    refine ⟨page, _, hfetch, h.imp_right ?_⟩
    rintro ⟨text, hverdict, h⟩
    rw [conclude, pageText_of_text (fetch_ok hfetch).2.1] at h
    split at h
    · cases h
    · next hdiff =>
      refine ⟨text, hverdict, hdiff, ?_⟩
      cases hsaving : m.saving target env (s.run env (m.fetch target)).2 with
      | error failure' => rw [hsaving] at h; exact congrArg Except.error (Except.error.inj h)
      | ok a => rw [hsaving] at h; cases h
  · rintro ⟨page, u, hfetch, h⟩
    rw [hfetch]
    refine ⟨page, rfl, h.imp_right ?_⟩
    rintro ⟨text, hverdict, hdiff, hsaving⟩
    refine ⟨text, hverdict, ?_⟩
    rw [conclude, pageText_of_text (fetch_ok hfetch).2.1, if_neg hdiff, hsaving]
    rfl

/-! ## Operations -/

/-- What installing comes to is known from what is made of the text of the page. -/
theorem run_install_fst (m : Manager) (e : Entry) (env : Surroundings) (s : Session) :
    (s.run env (m.install e)).1 = m.concluded e.target env s (m.installed env.source e (m.pageText s e.target)) := by
  rw [install, run_locked]
  refine run_fetch_bind_conclude fun u hu => ?_
  refine run_quiet_bind_conclude (quiet_isInstalled m _ e) (run_isInstalled_fst m _ e env u) fun found v _ hv => ?_
  have hpage : m.pageText v e.target = m.pageText s e.target := (pageText_of_service hv.service _).trans hu
  cases found with
  | true =>
    rw [if_pos rfl, if_pos rfl, ← hpage]
    exact run_unchanged_conclude rfl
  | false =>
    rw [if_neg Bool.false_ne_true, if_neg Bool.false_ne_true]
    refine run_quiet_bind_conclude (quiet_annotate m e) (run_annotate_fst m e env v) fun e' w hannotated hw => ?_
    refine run_quiet_bind_conclude (Quiet.ofExcept _) rfl fun statement x hstatement hx => ?_
    have htarget : e'.target = e.target :=
      (annotate_ok (show v.run env (m.annotate e) = (.ok e', _) from
        Prod.ext ((run_annotate_fst m e env v).trans hannotated) rfl)).target
    have hdiff := Page.apply_install_ne (Entry.isBlankLine_statement (ofUrl_ok hstatement)) (m.pageLines s e.target)
    rw [Page.install, Page.apply_extend, unlines_pageLines] at hdiff
    rw [htarget]
    refine run_submit_conclude fun hsame => hdiff (hsame.symm.trans ?_)
    rw [pageText_of_service (hw.trans hx).service, hpage]

/-- What normalizing comes to is known from what is made of the text of the page. -/
theorem run_normalize_fst (m : Manager) (target : String) (env : Surroundings) (s : Session) :
    (s.run env (m.normalize target)).1 = m.concluded target env s (m.normalized env.source target (m.pageText s target)) := by
  rw [normalize, run_holding]
  refine run_fetch_bind_conclude fun u hu => ?_
  rw [Session.run_bind_of_ok (run_notes_fst env u _)]
  have hnotes := Session.level_run (Quiet.notes (Wrapper.blockNotes (m.pageLines s target))) env u
  rw [← conclude_of_level hnotes]
  rw [normalized, ← pageLines]
  generalize (u.run env (Routine.notes (Wrapper.blockNotes (m.pageLines s target)))).2 = v at hnotes ⊢
  refine run_quiet_bind_conclude (quiet_annotateAll m _) (run_annotateAll_fst m _ env v) fun annotated w _ hw => ?_
  refine run_quiet_bind_conclude (Quiet.ofExcept _) rfl fun statements x _ hx => ?_
  rw [LawfulMonad.pure_bind]
  refine run_commit_conclude ?_
  rw [pageText_of_service (hnotes.trans (hw.trans hx)).service, hu, unlines_pageLines]

end Manager

end UserScripts
