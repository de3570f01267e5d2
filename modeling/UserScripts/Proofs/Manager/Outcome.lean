import UserScripts.Proofs.Manager.Honest

/-!
# What operations come to

The text of the page of a target alone decides what an operation comes to, unless a call to a wiki is refused: it fails, or it
makes a certain text of the page and says whether that is another one. So two runs that find the same text come to the same, and a
run during which no call is refused comes to exactly what the text decides. Main statements: `outcome_install`,
`outcome_uninstall`, `outcome_normalize`, `Outcome.of_calm`, `install_eq_false_iff` and `uninstall_eq_error_iff`.
-/

namespace UserScripts

open UserScripts.Text

/-- Surroundings in which no call to a wiki is refused. -/
def Surroundings.Calm (env : Surroundings) : Prop :=
  ∀ n call, env.outage n call = none

/-- The sources of scripts, of any page of any host. -/
abbrev Sources :=
  String → String → Except String String

namespace Page

/-- What uninstalling a script makes of the text of a page. -/
def uninstalled (e : Entry) (s : Settings) (text : String) : Except Failure String := do
  let removal ← removal (lines text) e s
  return unlines (removal.apply (lines text) s.fallbackDelay)

/-- Uninstalling fails exactly if nothing on the page can be removed. -/
theorem uninstalled_eq_error {e : Entry} {s : Settings} {text : String} {failure : Failure} :
    uninstalled e s text = .error failure ↔ removal (lines text) e s = .error failure := by
  unfold uninstalled
  cases removal (lines text) e s with
  | error failure' => exact ⟨fun h => congrArg Except.error (Except.error.inj h), fun h => congrArg Except.error (Except.error.inj h)⟩
  | ok removal => exact iff_of_false (fun h => by cases h) fun h => by cases h

end Page

namespace Routine

variable {α β : Type}

/-- A routine that asks for nothing but the sources of scripts, whatever it is answered. -/
inductive Consults : Routine α → Prop where
  | done (outcome : Except Failure α) : Consults (.done outcome)
  | lookup {host page : String} {next : Except String String → Routine α} (hnext : ∀ a, Consults (next a)) :
    Consults (.ask (.lookup host page) next)
  | note {n : Note} {next : Unit → Routine α} (hnext : ∀ a, Consults (next a)) : Consults (.ask (.note n) next)

namespace Consults

/-- Two parts that only ask for sources do so in sequence. -/
theorem bind {r : Routine α} {f : α → Routine β} (hr : Consults r) (hf : ∀ a, Consults (f a)) : Consults (r >>= f) := by
  induction hr with
  | done outcome =>
    cases outcome with
    | ok a => exact hf a
    | error e => exact .done (.error e)
  | lookup _ ih => exact .lookup ih
  | note _ ih => exact .note ih

/-- The sources decide what such a routine comes to, whatever the state of the session and whichever calls are refused. -/
theorem run_fst {r : Routine α} (hr : Consults r) {env env' : Surroundings} (h : env.source = env'.source) (s s' : Session) :
    (s.run env r).1 = (s'.run env' r).1 := by
  induction hr generalizing s s' with
  | done outcome => rfl
  | lookup _ ih =>
    rw [Session.run_ask, Session.run_ask]
    simp only [Session.answer, h]
    exact ih _ _ _
  | note _ ih => exact ih _ _ _

end Consults

end Routine

namespace Session

variable {α β : Type} {env : Surroundings} {s : Session} {r : Routine α}

/-- A value at hand is what its routine comes to. -/
theorem run_ofExcept_fst (env : Surroundings) (s : Session) (outcome : Except Failure α) :
    (s.run env (Routine.ofExcept outcome)).1 = outcome :=
  rfl

/-- After a part that comes to a value the run goes on with it. -/
theorem run_bind_of_ok {a : α} (h : (s.run env r).1 = .ok a) (f : α → Routine β) :
    s.run env (r >>= f) = (s.run env r).2.run env (f a) := by
  rw [run_bind, show s.run env r = (.ok a, (s.run env r).2) from Prod.ext h rfl]

/-- After a part that fails the run is over. -/
theorem run_bind_of_error {e : Failure} (h : (s.run env r).1 = .error e) (f : α → Routine β) :
    s.run env (r >>= f) = (.error e, (s.run env r).2) := by
  rw [run_bind, show s.run env r = (.error e, (s.run env r).2) from Prod.ext h rfl]

/-- What a sequence comes to is what its second part comes to after the first, if that succeeds. -/
theorem run_bind_fst (env : Surroundings) (s : Session) (r : Routine α) (f : α → Routine β) :
    (s.run env (r >>= f)).1 = (s.run env r).1 >>= fun a => ((s.run env r).2.run env (f a)).1 := by
  cases h : (s.run env r).1 with
  | ok a =>
    rw [run_bind_of_ok h]
    rfl
  | error failure =>
    rw [run_bind_of_error h]
    rfl

end Session

namespace Manager

open Routine

/-- The entry with the link title of its documentation, which only the sources of scripts decide. -/
def annotated (m : Manager) (source : Sources) (e : Entry) : Except Failure Entry :=
  (({} : Session).run { source } (m.annotate e)).1

/-- What installing a script makes of the text of a page. -/
def installed (m : Manager) (source : Sources) (e : Entry) (text : String) : Except Failure String := do
  if ← Failure.ofUrl (Page.isInstalled (lines text) e m.settings) then return text
  else
    let e ← m.annotated source e
    let statement ← Failure.ofUrl (e.statement m.settings)
    return Page.withStatement (lines text) statement

/-- What normalizing a target makes of the text of its page. -/
def normalized (m : Manager) (source : Sources) (target text : String) : Except Failure String := do
  let parsed := Page.plainEntries (lines text) target
  let annotated ← (parsed.map fun p => m.annotated source p.2).mapM id
  let statements ← m.statementsOf annotated
  return unlines (Page.setLines (lines text) ((parsed.map Prod.fst).zip statements))

/-- What a run on a target comes to, of which a verdict on the text of its page says what should come of it: a call is refused, or
it is as the verdict says. -/
inductive Outcome (m : Manager) (target : String) (env : Surroundings) (s : Session) (verdict : Except Failure String) :
    Except Failure Bool × Session → Prop where
  | refused {n : Nat} {call : Call} {message : String} {t : Session} (refused : env.outage n call = some message) :
    Outcome m target env s verdict (.error (.transport message), t)
  | failed {failure : Failure} {t : Session} (failed : verdict = .error failure) : Outcome m target env s verdict (.error failure, t)
  | done {text : String} {t : Session} (done : verdict = .ok text) (page : m.pageText t target = text) :
    Outcome m target env s verdict (.ok (decide (m.pageText s target ≠ text)), t)

variable {α : Type} {m : Manager} {target : String} {env : Surroundings} {s t u : Session} {page : List String}
  {verdict : Except Failure String}

/-- Without refused calls the verdict alone decides. -/
theorem Outcome.of_calm {run : Except Failure Bool × Session} (h : Outcome m target env s verdict run) (calm : env.Calm) :
    run.1 = verdict.map fun text => decide (m.pageText s target ≠ text) := by
  cases h with
  | refused refused => exact absurd ((calm _ _).symm.trans refused) (Option.some_ne_none _).symm
  | failed failed => rw [failed, Except.map]
  | done done _ => rw [done, Except.map]

/-- What the verdict makes of the text is the text of the page after a run in which no call is refused. -/
theorem Outcome.pageText_of_calm {run : Except Failure Bool × Session} {text : String} (h : Outcome m target env s (.ok text) run)
    (calm : env.Calm) : m.pageText run.2 target = text := by
  cases h with
  | refused refused => exact absurd ((calm _ _).symm.trans refused) (Option.some_ne_none _).symm
  | failed failed => cases failed
  | done done page => exact page.trans (Except.ok.inj done).symm

/-- A run in which no call is refused says that it has changed the page if what the verdict makes of the text is another one. -/
theorem Outcome.changed_of_calm {run : Except Failure Bool × Session} {text : String} (h : Outcome m target env s (.ok text) run)
    (calm : env.Calm) (hdiff : m.pageText s target ≠ text) : run.1 = .ok true ∧ m.pageText run.2 target = text := by
  refine ⟨?_, h.pageText_of_calm calm⟩
  rw [h.of_calm calm, Except.map, decide_eq_true hdiff]

/-- A run that comes to a value has made of the page what the verdict says. -/
theorem Outcome.of_ok {b : Bool} (h : Outcome m target env s verdict (.ok b, t)) : verdict = .ok (m.pageText t target) := by
  cases h with
  | done done page => rw [done, page]

/-- A run that succeeds says whether the page has changed. -/
theorem Outcome.eq_decide {b : Bool} (h : Outcome m target env s verdict (.ok b, t)) :
    b = decide (m.pageText s target ≠ m.pageText t target) := by
  cases h with
  | done _ page => rw [page]

/-- The lines of a page whose text is given by lines, of which there is at least one. -/
theorem pageLines_eq (h : m.pageText s target = unlines page)
    (ne_nil : page ≠ []) (isLine : ∀ l ∈ page, IsLine l) : m.pageLines s target = page := by
  rw [pageLines, h, lines_unlines ne_nil isLine]

/-! ## Calls -/

/-- A page is read unless the call is refused. -/
theorem read_cases (env : Surroundings) (s : Session) (site : Site) (title : String) :
    (∃ n call message, env.outage n call = some message ∧ (s.read env site title).1 = .error (.transport message)) ∨
      (s.read env site title).1 = .ok (s.text site title) := by
  unfold Session.read
  simp only [Session.call]
  split
  · cases ho : env.outage s.calls (.read title) with
    | none => exact Or.inr rfl
    | some message => exact Or.inl ⟨_, _, message, ho, rfl⟩
  · exact Or.inr rfl

/-- An edit is saved unless the call is refused. -/
theorem save_cases (env : Surroundings) (s : Session) (site : Site) (edit : Edit) :
    (∃ n call message, env.outage n call = some message ∧ (s.save env site edit).1 = .error (.transport message)) ∨
      (s.save env site edit).1 = .ok () := by
  unfold Session.save
  simp only [Session.call]
  split
  · cases ho : env.outage s.calls (.save edit.title) with
    | none => exact Or.inr rfl
    | some message => exact Or.inl ⟨_, _, message, ho, rfl⟩
  · exact Or.inr rfl

/-! ## Steps that cannot be refused -/

/-- Writing notes does not fail. -/
theorem run_notes_fst (env : Surroundings) (s : Session) (ns : List Note) : (s.run env (Routine.notes ns)).1 = .ok () := by
  induction ns generalizing s with
  | nil => rfl
  | cons n ns ih => exact ih _

/-- Whether a script is on a page is told in the same way by the manager and by the page. -/
theorem run_isInstalled_fst (m : Manager) (page : List String) (e : Entry) (env : Surroundings) (s : Session) :
    (s.run env (m.isInstalled page e)).1 = Failure.ofUrl (Page.isInstalled page e m.settings) := by
  rw [isInstalled, Session.run_bind_of_ok (run_notes_fst env s _)]
  rfl

/-- Looking up the documentation of a script asks for its source only. -/
theorem consults_documentation (m : Manager) (e : Entry) : Consults (m.documentation? e) := by
  unfold documentation?
  cases Documentation.lookup? e m.settings with
  | none => exact .done (.ok none)
  | some found =>
    refine Consults.bind (.lookup fun answer => .done (.ok answer)) fun answer => ?_
    cases answer with
    | error reason => exact .note fun _ => .done (.ok none)
    | ok text =>
      simp only
      cases Documentation.reference? (Documentation.header m.settings.docScanLimit text) with
      | none => exact .done (.ok none)
      | some reference => exact (Consults.done _).bind fun title => .note fun _ => .done (.ok title)

/-- Annotating an entry asks for the source of the script only. -/
theorem consults_annotate (m : Manager) (e : Entry) : Consults (m.annotate e) := by
  unfold annotate
  split
  · exact .done (.ok e)
  · refine (consults_documentation m e).bind fun title => ?_
    cases given title <;> exact .done (.ok _)

/-- What annotating an entry comes to depends on the sources alone. -/
theorem run_annotate_fst (m : Manager) (e : Entry) (env : Surroundings) (s : Session) :
    (s.run env (m.annotate e)).1 = m.annotated env.source e := by
  have hsame : env.source = ({ source := env.source } : Surroundings).source := rfl
  exact (consults_annotate m e).run_fst hsame s {}

/-- Attempts of routines come to what each of them comes to in any state. -/
theorem run_attemptAll_fst {β : Type} {f : β → Routine α} {outcome : β → Except Failure α}
    (h : ∀ b (u : Session), (u.run env (f b)).1 = outcome b) (bs : List β) (s : Session) :
    (s.run env (Routine.attemptAll (bs.map f))).1 = .ok (bs.map outcome) := by
  induction bs generalizing s with
  | nil => rfl
  | cons b bs ih =>
    have hfirst : (s.run env (f b).attempt).1 = .ok (outcome b) := by rw [Session.run_attempt, h]
    rw [List.map_cons, Routine.attemptAll, Session.run_bind_of_ok hfirst, Session.run_bind_of_ok (ih _)]
    rfl

/-- What annotating several entries comes to depends on the sources alone. -/
theorem run_annotateAll_fst (m : Manager) (parsed : List (Nat × Entry)) (env : Surroundings) (s : Session) :
    (s.run env (Routine.all (parsed.map fun p => m.annotate p.2))).1 =
      (parsed.map fun p => m.annotated env.source p.2).mapM id := by
  rw [Routine.all, Session.run_bind_of_ok (run_attemptAll_fst (fun p u => run_annotate_fst m p.2 env u) parsed s)]
  rfl

/-! ## Sequences -/

/-- Every operation starts by fetching the page of its target, which may be refused. -/
theorem Outcome.after_fetch {f : List String → Routine Bool}
    (h : ∀ u, Ready m target (m.pageLines s target) u → Outcome m target env s verdict (u.run env (f (m.pageLines s target)))) :
    Outcome m target env s verdict (s.run env (m.fetch target >>= f)) := by
  rcases read_cases env s (m.siteOf target) (m.settings.targetTitle target) with ⟨n, call, message, refused, hread⟩ | hread
  · have hfetch : (s.run env (m.fetch target)).1 = .error (.transport message) := by
      rw [fetch, Session.run_bind, Session.run_query]
      simp only [Session.answer, hread]
      rfl
    rw [Session.run_bind_of_error hfetch]
    exact .refused refused
  · have hfetch : (s.run env (m.fetch target)).1 = .ok (m.pageLines s target) := by
      rw [fetch, Session.run_bind, Session.run_query]
      simp only [Session.answer, hread]
      rfl
    obtain ⟨-, htext, held⟩ := fetch_ok (show s.run env (m.fetch target) = (.ok (m.pageLines s target), _) from Prod.ext hfetch rfl)
    rw [Session.run_bind_of_ok hfetch]
    refine h _ ⟨?_, held⟩
    rw [pageLines, pageLines, pageText_of_text htext]

/-- A quiet part of which it is known what it comes to: its failure is that of the verdict, and its value leaves the page as it was
fetched. -/
theorem Outcome.after_quiet {r : Routine α} {f : α → Routine Bool} {outcome : Except Failure α} {rest : α → Except Failure String}
    (hr : Quiet r) (hrun : (u.run env r).1 = outcome) (ready : Ready m target page u)
    (h : ∀ a v, outcome = .ok a → Ready m target page v → Outcome m target env s (rest a) (v.run env (f a))) :
    Outcome m target env s (outcome >>= rest) (u.run env (r >>= f)) := by
  cases outcome with
  | error e =>
    rw [Session.run_bind_of_error hrun]
    exact .failed rfl
  | ok a =>
    rw [Session.run_bind_of_ok hrun]
    exact h a _ rfl (ready.of_service (Session.service_run hr env u))

/-- What a run comes to is not changed by notes before it. -/
theorem Outcome.after_notes {notes : List Note} {f : Unit → Routine Bool} (ready : Ready m target page u)
    (h : ∀ v, Ready m target page v → Outcome m target env s verdict (v.run env (f ()))) :
    Outcome m target env s verdict (u.run env (Routine.notes notes >>= f)) := by
  rw [Session.run_bind_of_ok (run_notes_fst env u notes)]
  exact h _ (ready.of_service (Session.service_run (Quiet.notes notes) env u))

/-- Submitting a change of the page as it was at the start. -/
theorem outcome_submit {summary text : String} {change : Change} (ready : Ready m target (m.pageLines s target) u)
    (happly : change.apply (m.pageText s target) = text) (hdiff : m.pageText s target ≠ text) :
    Outcome m target env s (.ok text) (u.run env (m.submit target summary change >>= fun _ => pure true)) := by
  have hsubmit := run_submit_fst m target summary change env u
  rcases save_cases env u (m.siteOf target) ⟨m.settings.targetTitle target, summary, change⟩ with
    ⟨n, call, message, refused, hsave⟩ | hsave
  · rw [Session.run_bind_of_error (hsubmit.trans hsave)]
    exact .refused refused
  · have hpage := submit_ok ready.held (show u.run env (m.submit target summary change) = (.ok (), _) from
      Prod.ext (hsubmit.trans hsave) rfl)
    rw [ready.pageText, unlines_pageLines, happly] at hpage
    have hdone : Outcome m target env s (.ok text) (.ok (decide (m.pageText s target ≠ text)), _) := .done rfl hpage
    rw [decide_eq_true hdiff] at hdone
    rw [Session.run_bind_of_ok (hsubmit.trans hsave)]
    exact hdone

/-- A run that makes no call and says that nothing has changed leaves the text as it was. -/
theorem outcome_unchanged {r : Routine Unit} (hr : Quiet r) (hrun : (u.run env r).1 = .ok ())
    (ready : Ready m target (m.pageLines s target) u) :
    Outcome m target env s (.ok (m.pageText s target)) (u.run env (r >>= fun _ => pure false)) := by
  rw [Session.run_bind_of_ok hrun]
  have hready := ready.of_service (Session.service_run hr env u)
  have hpage : m.pageText (u.run env r).2 target = m.pageText s target := hready.pageText.trans (unlines_pageLines m s target)
  have hdone : Outcome m target env s (.ok (m.pageText s target)) (.ok (decide (m.pageText s target ≠ m.pageText s target)), _) :=
    .done rfl hpage
  rwa [decide_eq_false (not_not_intro rfl)] at hdone

/-- Committing new lines of the page as it was at the start. -/
theorem outcome_commit {summary : String} {new : List String} (ready : Ready m target (m.pageLines s target) u) :
    Outcome m target env s (.ok (unlines new)) (u.run env (m.commit target summary (m.pageLines s target) new)) := by
  unfold commit
  rw [unlines_pageLines]
  split
  · next hsame =>
    rw [← hsame]
    exact outcome_unchanged (quiet_say _ _) rfl ready
  · next hdiff => exact outcome_submit ready rfl hdiff

/-! ## Operations -/

variable {e : Entry}

/-- Uninstalling comes to what the text of the page decides. -/
theorem outcome_uninstallUnlocked (m : Manager) (e : Entry) (env : Surroundings) (s : Session) :
    Outcome m e.target env s (Page.uninstalled e m.settings (m.pageText s e.target)) (s.run env (m.uninstallUnlocked e)) := by
  refine .after_fetch fun u ready => ?_
  refine .after_notes ready fun u ready => ?_
  refine .after_quiet (Quiet.ofExcept _) rfl ready fun removal u _ ready => ?_
  split
  · exact .after_notes ready fun u ready => outcome_commit ready
  · exact outcome_commit ready

/-- Installing comes to what the text of the page and the sources of scripts decide. -/
theorem outcome_installUnlocked (m : Manager) (e : Entry) (env : Surroundings) (s : Session) :
    Outcome m e.target env s (m.installed env.source e (m.pageText s e.target)) (s.run env (m.installUnlocked e)) := by
  refine .after_fetch fun u ready => ?_
  refine .after_quiet (quiet_isInstalled m _ e) (run_isInstalled_fst m _ e env u) ready fun found u _ ready => ?_
  cases found with
  | true => exact outcome_unchanged (quiet_say _ _) rfl ready
  | false =>
    refine .after_quiet (quiet_annotate m e) (run_annotate_fst m e env u) ready fun e' v hannotated ready => ?_
    refine .after_quiet (Quiet.ofExcept _) rfl ready fun statement v hstatement ready => ?_
    have htarget : e'.target = e.target :=
      (annotate_ok (show u.run env (m.annotate e) = (.ok e', _) from
        Prod.ext ((run_annotate_fst m e env u).trans hannotated) rfl)).target
    have hblank := Entry.isBlankLine_statement (ofUrl_ok hstatement)
    have happly : (Page.install (m.pageLines s e.target) statement).apply (m.pageText s e.target) =
        Page.withStatement (m.pageLines s e.target) statement := by
      rw [Page.install, unlines_pageLines, Page.apply_extend]
    have hdiff := Page.apply_install_ne hblank (m.pageLines s e.target)
    rw [unlines_pageLines, happly] at hdiff
    rw [htarget]
    exact outcome_submit ready happly hdiff.symm

/-- Normalizing comes to what the text of the page and the sources of scripts decide. -/
theorem outcome_normalize (m : Manager) (target : String) (env : Surroundings) (s : Session) :
    Outcome m target env s (m.normalized env.source target (m.pageText s target)) (s.run env (m.normalize target)) := by
  rw [normalize, run_holding]
  refine .after_fetch fun u ready => ?_
  refine .after_notes ready fun u ready => ?_
  refine .after_quiet (quiet_annotateAll m _) (run_annotateAll_fst m _ env u) ready fun annotated u _ ready => ?_
  exact .after_quiet (Quiet.ofExcept _) rfl ready fun statements u _ ready => outcome_commit ready

/-- Installing comes to what `Manager.installed` says of the text of the page, unless a call is refused. -/
theorem outcome_install (m : Manager) (e : Entry) (env : Surroundings) (s : Session) :
    Outcome m e.target env s (m.installed env.source e (m.pageText s e.target)) (s.run env (m.install e)) := by
  rw [install, run_locked]
  exact outcome_installUnlocked m e env s

/-- Uninstalling comes to what `Page.uninstalled` says of the text of the page, unless a call is refused. -/
theorem outcome_uninstall (m : Manager) (e : Entry) (env : Surroundings) (s : Session) :
    Outcome m e.target env s (Page.uninstalled e m.settings (m.pageText s e.target)) (s.run env (m.uninstall e)) := by
  rw [uninstall, run_locked]
  exact outcome_uninstallUnlocked m e env s

/-! ## Runs in which no call is refused -/

/-- Installing changes nothing exactly if the page counts as loading the script. -/
theorem install_eq_false_iff (calm : env.Calm) :
    (s.run env (m.install e)).1 = .ok false ↔ Page.isInstalled (m.pageLines s e.target) e m.settings = .ok true := by
  refine ⟨fun h => (install_ok (show s.run env (m.install e) = (.ok false, _) from Prod.ext h rfl)).1, fun h => ?_⟩
  have hverdict : m.installed env.source e (m.pageText s e.target) = .ok (m.pageText s e.target) := by
    rw [pageLines] at h
    rw [installed, h]
    rfl
  rw [(outcome_install m e env s).of_calm calm, hverdict]
  simp [Except.map]

/-- Uninstalling fails exactly if nothing on the page can be removed. -/
theorem uninstall_eq_error_iff {failure : Failure} (calm : env.Calm) :
    (s.run env (m.uninstall e)).1 = .error failure ↔ Page.removal (m.pageLines s e.target) e m.settings = .error failure := by
  rw [(outcome_uninstall m e env s).of_calm calm, pageLines, ← Page.uninstalled_eq_error]
  cases Page.uninstalled e m.settings (m.pageText s e.target) with
  | error failure' => exact ⟨fun h => congrArg Except.error (Except.error.inj h), fun h => congrArg Except.error (Except.error.inj h)⟩
  | ok text => exact iff_of_false (fun h => by cases h) fun h => by cases h

end Manager

end UserScripts
