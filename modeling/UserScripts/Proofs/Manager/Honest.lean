import UserScripts.Proofs.Manager.Effects
import UserScripts.Proofs.Page.Change
import UserScripts.Proofs.Session.Effect
import UserScripts.Proofs.Statement.Shape

/-!
# What operations say about themselves

An operation that fails, or says that it has changed nothing, has changed nothing at all, and one that says that it has changed
its target has made one edit, of the page of the target, that really changes it. Whatever has become of an edit that was submitted,
the cache does not hold the target any more. Main statement: `operation_is_honest`.
-/

namespace UserScripts

open UserScripts.Text

/-- The target that an operation edits: that of its entry if it is about one, else the given target. -/
def Operation.place (op : Operation) (target : String) : String :=
  (op.entry?.map Entry.target).getD target

namespace Manager

open Routine

/-- What a routine that edits a target says is what it has done. -/
structure Honest (m : Manager) (target : String) (env : Surroundings) (s : Session) (r : Routine Bool) : Prop where
  /-- Unless it says that it has changed the target, no page has changed and no edit has been recorded. -/
  unchanged : (s.run env r).1 ≠ .ok true → s.Unchanged (s.run env r).2
  /-- If it says so, it has submitted one edit, of the page of the target, and that is all that has changed. -/
  edited : (s.run env r).1 = .ok true → ∃ edit, edit.title = m.settings.targetTitle target ∧
    s.submissions env r = [(m.siteOf target, edit)] ∧ Session.EditedOn (m.siteOf target) edit s (s.run env r).2
  /-- If it says that it has changed nothing, it has not even tried to. -/
  silent : (s.run env r).1 = .ok false → s.submissions env r = []
  /-- After an edit has been submitted, saved or not, the cache does not hold the target. -/
  forgotten : s.submissions env r ≠ [] → Keyed.get? (s.run env r).2.cache target = none

/-- The lines are those of the page of a target, which can be edited. -/
structure Ready (m : Manager) (target : String) (page : List String) (s : Session) : Prop where
  page : page = m.pageLines s target
  held : s.Held (m.siteOf target) (m.settings.targetTitle target)

variable {α : Type} {m : Manager} {target : String} {env : Surroundings} {s t : Session} {page : List String}

/-- A page that is ready to be edited stays so as long as the services do. -/
theorem Ready.of_service (h : Ready m target page s) (hservice : t.service = s.service) : Ready m target page t := by
  refine ⟨?_, held_of_service hservice h.held⟩
  rw [h.page, pageLines, pageLines, pageText_of_service hservice]

/-- The text of a page that is ready to be edited is that of its lines. -/
theorem Ready.pageText (h : Ready m target page s) : m.pageText s target = unlines page := by
  rw [h.page, unlines_pageLines]

/-! ## Sequences -/

/-- What comes after a part that changes nothing and submits nothing decides. -/
theorem Honest.after {r : Routine α} {f : α → Routine Bool} (hunchanged : s.Unchanged (s.run env r).2)
    (hsilent : s.submissions env r = []) (h : ∀ a u, s.run env r = (.ok a, u) → Honest m target env u (f a)) :
    Honest m target env s (r >>= f) := by
  have hsub := Session.submissions_bind env s r f
  have hrun := Session.run_bind env s r f
  rw [hsilent, List.nil_append] at hsub
  cases hr : s.run env r with
  | mk outcome u =>
    rw [hr] at hsub hrun hunchanged
    cases outcome with
    | error e =>
      simp only at hsub hrun
      refine ⟨fun _ => ?_, fun htrue => ?_, fun _ => hsub, fun hne => absurd hsub hne⟩
      · rw [hrun]
        exact hunchanged
      · rw [hrun] at htrue
        cases htrue
    | ok a =>
      simp only at hsub hrun
      have hrest := h a u hr
      refine ⟨?_, ?_, ?_, ?_⟩
      · rw [hrun]
        exact fun hne => hunchanged.trans (hrest.unchanged hne)
      · rw [hrun, hsub]
        intro htrue
        obtain ⟨edit, htitle, hedit, hedited⟩ := hrest.edited htrue
        exact ⟨edit, htitle, hedit, hunchanged.editedOn hedited⟩
      · rw [hrun, hsub]
        exact hrest.silent
      · rw [hrun, hsub]
        exact hrest.forgotten

/-- A quiet part of a sequence leaves the page as it was fetched. -/
theorem Honest.after_quiet {r : Routine α} {f : α → Routine Bool} (hr : Quiet r) (ready : Ready m target page s)
    (h : ∀ a u, s.run env r = (.ok a, u) → Ready m target page u → Honest m target env u (f a)) :
    Honest m target env s (r >>= f) := by
  refine .after (Session.unchanged_run hr env s) (Session.submissions_of_quiet hr env s) fun a u hrun => ?_
  have hservice := Session.service_run hr env s
  rw [hrun] at hservice
  exact h a u hrun (ready.of_service hservice)

/-- An outcome that is not a value ends a sequence. -/
theorem Honest.after_outcome {outcome : Except Failure α} {f : α → Routine Bool}
    (h : ∀ a, outcome = .ok a → Honest m target env s (f a)) : Honest m target env s (Routine.ofExcept outcome >>= f) := by
  refine .after (.refl s) rfl fun a u hrun => ?_
  obtain ⟨hout, rfl⟩ := Prod.mk.inj hrun
  exact h a hout

/-- A routine that first writes notes is honest if it is so after them. -/
theorem Honest.after_notes {notes : List Note} {f : Unit → Routine Bool} (ready : Ready m target page s)
    (h : ∀ u, Ready m target page u → Honest m target env u (f ())) : Honest m target env s (Routine.notes notes >>= f) :=
  .after_quiet (Quiet.notes notes) ready fun _ u _ hu => h u hu

/-- Fetching a target submits no edit. -/
theorem submissions_fetch (m : Manager) (target : String) (env : Surroundings) (s : Session) :
    s.submissions env (m.fetch target) = [] := by
  rw [fetch, Session.submissions_bind, Session.run_query]
  exact Session.submissions_of_quiet (quiet_after_read target _) env _

/-- Fetching a target changes no page. -/
theorem unchanged_fetch (m : Manager) (target : String) (env : Surroundings) (s : Session) :
    s.Unchanged (s.run env (m.fetch target)).2 := by
  rw [fetch, Session.run_bind, Session.run_query]
  exact (Session.unchanged_read env s _ _).trans (Session.unchanged_run (quiet_after_read target _) env _)

/-- Every operation starts by fetching the page of its target. -/
theorem Honest.after_fetch {f : List String → Routine Bool}
    (h : ∀ page u, Ready m target page u → Honest m target env u (f page)) : Honest m target env s (m.fetch target >>= f) := by
  refine .after (unchanged_fetch m target env s) (submissions_fetch m target env s) fun page u hrun => ?_
  obtain ⟨hpage, htext, held⟩ := fetch_ok hrun
  refine h page u ⟨?_, held⟩
  rw [hpage, pageLines, pageLines, pageText_of_text htext]

/-- A key does not matter to an operation that runs alone. -/
theorem submissions_holding (env : Surroundings) (s : Session) (key : String) (r : Routine α) :
    s.submissions env (holding key r) = s.submissions env r := by
  rw [Manager.holding, Session.submissions_bind, Session.run_query]
  simp only [Session.answer]
  rw [Session.submissions_bind, Session.submissions_attempt, Session.run_attempt]
  exact List.append_nil _

/-- What is carried out under a key is as honest as without. -/
theorem Honest.holding {key : String} {r : Routine Bool} (h : Honest m target env s r) :
    Honest m target env s (holding key r) := by
  have hrun := run_holding env s key r
  have hsub := submissions_holding env s key r
  refine ⟨?_, ?_, ?_, ?_⟩
  · rw [hrun]
    exact h.unchanged
  · rw [hrun, hsub]
    exact h.edited
  · rw [hrun, hsub]
    exact h.silent
  · rw [hrun, hsub]
    exact h.forgotten

/-! ## Ends -/

/-- Saying that nothing has changed, after quiet steps only. -/
theorem honest_unchanged {r : Routine α} (hr : Quiet r) : Honest m target env s (r >>= fun _ => pure false) := by
  refine .after (Session.unchanged_run hr env s) (Session.submissions_of_quiet hr env s) fun a u _ => ?_
  exact ⟨fun _ => .refl u, fun htrue => (by cases htrue), fun _ => rfl, fun hne => absurd rfl hne⟩

/-- Submitting a change submits one edit, which is of the page of the target. -/
theorem submissions_submit (m : Manager) (target summary : String) (change : Change) (env : Surroundings) (s : Session) :
    s.submissions env (m.submit target summary change) =
      [(m.siteOf target, ⟨m.settings.targetTitle target, summary, change⟩)] := by
  rw [submit, Session.submissions_bind, Session.run_query]
  simp only [Session.answer]
  rw [Session.submissions_of_quiet (quiet_after_save m target summary _)]
  rfl

/-- After a submission the cache does not hold the target, whether the edit has been saved or not. -/
theorem get?_cache_run_submit (m : Manager) (target summary : String) (change : Change) (env : Surroundings) (s : Session) :
    Keyed.get? (s.run env (m.submit target summary change)).2.cache target = none := by
  have hforget : ∀ u : Session, Keyed.get? (u.cache.forget (some target)) target = none := by
    intro u
    rw [Cache.get?_forget_some, if_pos rfl]
  rw [submit, Session.run_bind, Session.run_query]
  simp only [Session.answer]
  cases (s.save env (m.siteOf target) ⟨m.settings.targetTitle target, summary, change⟩).1 with
  | error e => exact hforget _
  | ok _ => exact hforget _

/-- Submitting a change of the page and saying so. -/
theorem honest_submit {summary : String} {change : Change} (ready : Ready m target page s)
    (hdiff : change.apply (unlines page) ≠ unlines page) :
    Honest m target env s (m.submit target summary change >>= fun _ => pure true) := by
  have hsub := Session.submissions_bind env s (m.submit target summary change) fun _ => pure true
  have hrun := Session.run_bind env s (m.submit target summary change) fun _ => pure true
  have hsave := run_submit_fst m target summary change env s
  have hcache := get?_cache_run_submit m target summary change env s
  have hafter : (s.save env (m.siteOf target) ⟨m.settings.targetTitle target, summary, change⟩).2.Unchanged
      (s.run env (m.submit target summary change)).2 := by
    rw [submit, Session.run_bind, Session.run_query]
    exact Session.unchanged_run (quiet_after_save m target summary _) env _
  have hedited : (s.save env (m.siteOf target) ⟨m.settings.targetTitle target, summary, change⟩).1 = .ok () →
      Session.EditedOn (m.siteOf target) ⟨m.settings.targetTitle target, summary, change⟩ s
        (s.save env (m.siteOf target) ⟨m.settings.targetTitle target, summary, change⟩).2 := by
    rw [← ready.pageText] at hdiff
    exact Session.editedOn_save ready.held hdiff
  rw [submissions_submit] at hsub
  cases hr : s.run env (m.submit target summary change) with
  | mk outcome u =>
    rw [hr] at hsub hrun hsave hcache hafter
    cases outcome with
    | error e =>
      simp only at hsub hrun
      refine ⟨fun _ => ?_, fun htrue => ?_, fun hfalse => ?_, fun _ => ?_⟩
      · rw [hrun]
        exact (Session.unchanged_save hsave.symm).trans hafter
      · rw [hrun] at htrue
        cases htrue
      · rw [hrun] at hfalse
        cases hfalse
      · rw [hrun]
        exact hcache
    | ok _ =>
      simp only at hsub hrun
      refine ⟨fun hne => ?_, fun _ => ?_, fun hfalse => ?_, fun _ => ?_⟩
      · rw [hrun] at hne
        exact absurd rfl hne
      · rw [hrun]
        exact ⟨_, rfl, hsub, (hedited hsave.symm).unchanged hafter⟩
      · rw [hrun] at hfalse
        cases hfalse
      · rw [hrun]
        exact hcache

/-- Committing new lines of the page. -/
theorem honest_commit {summary : String} {new : List String} (ready : Ready m target page s) :
    Honest m target env s (m.commit target summary page new) := by
  unfold commit
  split
  · exact honest_unchanged (quiet_say _ _)
  · next hdiff => exact honest_submit ready fun hsame => hdiff hsame.symm

/-! ## Operations -/

variable {e : Entry}

/-- Installing without the lock is honest. -/
theorem honest_installUnlocked : Honest m e.target env s (m.installUnlocked e) := by
  refine .after_fetch fun page u ready => ?_
  refine .after_quiet (quiet_isInstalled m page e) ready fun found u _ ready => ?_
  cases found with
  | true => exact honest_unchanged (quiet_say _ _)
  | false =>
    refine .after_quiet (quiet_annotate m e) ready fun e' u hannotate ready => ?_
    refine .after_outcome fun statement hstatement => ?_
    rw [(annotate_ok hannotate).target]
    exact honest_submit ready (Page.apply_install_ne (Entry.isBlankLine_statement (ofUrl_ok hstatement)) page)

/-- Uninstalling without the lock is honest. -/
theorem honest_uninstallUnlocked : Honest m e.target env s (m.uninstallUnlocked e) := by
  refine .after_fetch fun page u ready => ?_
  refine .after_notes ready fun u ready => ?_
  refine .after_outcome fun removal _ => ?_
  split
  · exact .after_notes ready fun u ready => honest_commit ready
  · exact .after_quiet (Quiet.pure ()) ready fun _ u _ ready => honest_commit ready

/-- Switching a script off or on is honest. -/
theorem honest_setDisabled {disabled : Bool} : Honest m e.target env s (m.setDisabled e disabled) := by
  refine .holding (.after_fetch fun page u ready => ?_)
  refine .after_notes ready fun u ready => ?_
  exact .after_outcome fun new _ => honest_commit ready

/-- Normalizing is honest. -/
theorem honest_normalize : Honest m target env s (m.normalize target) := by
  refine .holding (.after_fetch fun page u ready => ?_)
  refine .after_notes ready fun u ready => ?_
  refine .after_quiet (quiet_annotateAll m _) ready fun annotated u _ ready => ?_
  exact .after_outcome fun statements _ => honest_commit ready

/-- A capture is honest. -/
theorem honest_capture {name : Option String} : Honest m e.target env s (m.capture e name) := by
  refine .holding (.after_fetch fun page u ready => ?_)
  refine .after_notes ready fun u ready => ?_
  exact .after_outcome fun new _ => honest_commit ready

/-- A decapture is honest. -/
theorem honest_decapture : Honest m e.target env s (m.decapture e) := by
  refine .holding (.after_fetch fun page u ready => ?_)
  refine .after_notes ready fun u ready => ?_
  refine .after_outcome fun release _ => ?_
  refine .after_notes ready fun u ready => ?_
  exact .after_quiet (quiet_restore m e release.kept) ready fun restored u _ ready => honest_commit ready

/-- Every operation on a target does what it says, in any state of the wikis and of the cache and whichever calls fail. -/
theorem operation_is_honest (m : Manager) (target : String) (op : Operation) (env : Surroundings) (s : Session) :
    Honest m (op.place target) env s (op.routine m target) := by
  cases op with
  | install e => exact honest_installUnlocked.holding
  | uninstall e => exact honest_uninstallUnlocked.holding
  | setDisabled e disabled => exact honest_setDisabled
  | normalize => exact honest_normalize
  | capture e name => exact honest_capture
  | decapture e => exact honest_decapture

end Manager

end UserScripts
