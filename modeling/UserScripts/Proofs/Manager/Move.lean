import UserScripts.Proofs.Manager.Frame
import UserScripts.Proofs.Page.Loads

/-!
# Moving scripts

A move never loses its script. It installs the script on the new target before it touches the old one, so in every state on the way
in which the page of the old target is another one than at the start, the new target has the script. Whichever calls are refused, a
move ends in one of three ways: both pages are as they should be, nothing has changed, or the script is on both targets and the
failure says so. Then uninstalling the script from the old target finishes the move, unless the script counts as installed there
although it cannot be removed. Main statement: `move_never_loses_the_script_iff`.
-/

namespace UserScripts

open UserScripts.Text

namespace Manager

open Routine

variable {m : Manager} {e : Entry} {env : Surroundings} {s t u : Session} {destination : String}

/-! ## Failures before anything is changed -/

/-- The only failure that a step on a URL reports is that of the URL. -/
theorem ofUrl_error {α : Type} {outcome : Except Url.Malformed α} {failure : Failure} (h : Failure.ofUrl outcome = .error failure) :
    failure = .malformedUrl := by
  cases outcome with
  | error malformed => exact (Except.error.inj h).symm
  | ok a => cases h

/-- Fetching a target fails only because of a refused call. -/
theorem fetch_error {target : String} {failure : Failure} (h : (s.run env (m.fetch target)).1 = .error failure) :
    ∃ message, failure = .transport message := by
  rw [fetch, Session.run_bind, Session.run_query] at h
  simp only [Session.answer] at h
  rcases read_cases env s (m.siteOf target) (m.settings.targetTitle target) with ⟨_, _, message, _, hread⟩ | hread
  · rw [hread] at h
    exact ⟨message, (Except.error.inj h).symm⟩
  · rw [hread] at h
    cases h

/-- A sequence fails in its first part or in its second one. -/
theorem bind_error {α β : Type} {first : Except Failure α} {rest : α → Except Failure β} {failure : Failure}
    (h : first >>= rest = .error failure) : first = .error failure ∨ ∃ a, first = .ok a ∧ rest a = .error failure := by
  cases first with
  | error e => exact Or.inl (congrArg Except.error (Except.error.inj h))
  | ok a => exact Or.inr ⟨a, rfl, h⟩

/-- Looking up documentation fails only because of a URL in the source of the script. -/
theorem documentation_error {failure : Failure} (h : s.run env (m.documentation? e) = (.error failure, t)) :
    failure = .malformedUrl := by
  unfold documentation? at h
  split at h
  · cases h
  · next host page _ =>
    obtain h | ⟨answer, u, -, h⟩ := Session.run_bind_error h
    · cases h
    · split at h
      · cases h
      · split at h
        · cases h
        · obtain h | ⟨title, u, -, h⟩ := Session.run_bind_error h
          · exact ofUrl_error (congrArg Prod.fst h)
          · cases h

/-- Annotating an entry fails only because of a URL in the source of the script. -/
theorem annotated_error {source : Sources} {failure : Failure} (h : m.annotated source e = .error failure) :
    failure = .malformedUrl := by
  unfold annotated annotate at h
  split at h
  · cases h
  · obtain hdoc | ⟨title, u, -, htitle⟩ := Session.run_bind_error (Prod.ext h rfl)
    · exact documentation_error hdoc
    · split at htitle <;> cases htitle

/-- Whether a script can be installed depends on nothing but URLs. -/
theorem installed_error {source : Sources} {text : String} {failure : Failure}
    (h : m.installed source e text = .error failure) : failure = .malformedUrl := by
  obtain h | ⟨found, -, h⟩ := bind_error h
  · exact ofUrl_error h
  · cases found with
    | true => cases h
    | false =>
      obtain h | ⟨e', -, h⟩ := bind_error h
      · exact annotated_error h
      · obtain h | ⟨statement, -, h⟩ := bind_error h
        · exact ofUrl_error h
        · cases h

/-! ## How a move ends -/

/-- A state that shows given texts on the pages of the two targets of a move, and elsewhere what an earlier state showed. -/
structure Shows (m : Manager) (e : Entry) (destination : String) (s : Session) (left arrived : String) (t : Session) : Prop where
  central : t.central = none ↔ s.central = none
  source : m.pageText t e.target = left
  arrival : m.pageText t destination = arrived
  others : ∀ site title, s.Elsewhere (m.siteOf e.target) (m.settings.targetTitle e.target) site title →
    s.Elsewhere (m.siteOf destination) (m.settings.targetTitle destination) site title → t.text site title = s.text site title

/-- The three ways in which a move ends. -/
inductive MoveEnd (m : Manager) (env : Surroundings) (e : Entry) (destination : String) (s : Session) :
    Except Failure Bool × Session → Prop where
  /-- The old page is what uninstalling makes of it, and the new one is what installing makes of it. -/
  | done {left arrived : String} {t : Session} (found : Page.isInstalled (m.pageLines s e.target) e m.settings = .ok true)
      (uninstalled : Page.uninstalled e m.settings (m.pageText s e.target) = .ok left)
      (installed : m.installed env.source (e.withTarget destination) (m.pageText s destination) = .ok arrived)
      (pages : m.Shows e destination s left arrived t) : MoveEnd m env e destination s (.ok true, t)
  /-- Nothing has changed. -/
  | failed {failure : Failure} {t : Session} (kind : failure.kind? ≠ some "MoveIncompleteError") (unchanged : s.Unchanged t) :
      MoveEnd m env e destination s (.error failure, t)
  /-- The script has arrived but is still on the old page too. The cause is told: a refused call, or that the old page is one from
  which the script cannot be uninstalled. -/
  | incomplete {cause : Failure} {arrived : String} {t : Session}
      (found : Page.isInstalled (m.pageLines s e.target) e m.settings = .ok true)
      (reason : (∃ n call message, env.outage n call = some message ∧ cause = .transport message) ∨
        Page.uninstalled e m.settings (m.pageText s e.target) = .error cause)
      (installed : m.installed env.source (e.withTarget destination) (m.pageText s destination) = .ok arrived)
      (pages : m.Shows e destination s (m.pageText s e.target) arrived t) :
      MoveEnd m env e destination s (.error (.moveIncomplete e.displayName e.target destination cause), t)

/-! ## From state to state -/

section Shows

variable {left arrived text : String}

/-- A state that shows given texts shows them after a step that changes no page. -/
theorem Shows.of_unchanged (h : m.Shows e destination s left arrived t) (hu : t.Unchanged u) :
    m.Shows e destination s left arrived u where
  central := hu.central_eq_none.trans h.central
  source := (pageText_of_text hu.text _).trans h.source
  arrival := (pageText_of_text hu.text _).trans h.arrival
  others site title h₁ h₂ := by rw [hu.text, h.others site title h₁ h₂]

/-- An edit of the old page leaves the new one as it is. -/
theorem Shows.leave (h : m.Shows e destination s left arrived t) (hdiff : m.DifferentPages s e.target destination)
    (hu : Session.Aside (m.siteOf e.target) (m.settings.targetTitle e.target) t u) (htext : m.pageText u e.target = text) :
    m.Shows e destination s text arrived u where
  central := hu.central.trans h.central
  source := htext
  arrival := (pageText_of_aside (hdiff.of_central h.central) hu).trans h.arrival
  others site title h₁ h₂ :=
    (hu.text site title (h₁.imp_right (And.imp_right (mt h.central.mp)))).trans (h.others site title h₁ h₂)

/-- Uninstalling the script from the old target, where it still is, comes to what the old text decides. -/
theorem Shows.recover (h : m.Shows e destination s (m.pageText s e.target) arrived t)
    (hdiff : m.DifferentPages s e.target destination) (calm : env.Calm) :
    (t.run env (m.uninstall e)).1 =
        (Page.uninstalled e m.settings (m.pageText s e.target)).map (fun left => decide (m.pageText s e.target ≠ left)) ∧
      ∀ left, Page.uninstalled e m.settings (m.pageText s e.target) = .ok left →
        m.Shows e destination s left arrived (t.run env (m.uninstall e)).2 := by
  have houtcome := outcome_uninstall m e env t
  have hframe : m.FrameOf e.target env t (m.uninstall e) := frame_holding (frame_uninstallUnlocked m e env t)
  have hfst := houtcome.of_calm calm
  rw [h.source] at houtcome hfst
  refine ⟨hfst, fun left hleft => h.leave hdiff hframe.run ?_⟩
  rw [hleft] at houtcome
  exact houtcome.pageText_of_calm calm

end Shows

/-- What remains of a move goes on as it should. -/
structure Proceeds (m : Manager) (env : Surroundings) (e : Entry) (destination : String) (s t : Session) (r : Routine Bool) :
    Prop where
  ending : MoveEnd m env e destination s (t.run env r)
  /-- In no state does the page of the old target differ from what it was at the start without the script on the new one. -/
  onTheWay : ∀ u ∈ t.visited env r, m.pageText u e.target ≠ m.pageText s e.target →
    m.installed env.source (e.withTarget destination) (m.pageText s destination) = .ok (m.pageText u destination)

/-- A part that leaves the old page alone and fails, if at all, before anything has changed. -/
theorem Proceeds.bind {α : Type} {r : Routine α} {f : α → Routine Bool} (hdiff : m.DifferentPages s e.target destination)
    (hcentral : t.central = none ↔ s.central = none) (hsource : m.pageText t e.target = m.pageText s e.target)
    (hframe : m.FrameOf destination env t r)
    (herror : ∀ failure u, t.run env r = (.error failure, u) → failure.kind? ≠ some "MoveIncompleteError" ∧ s.Unchanged u)
    (hok : ∀ a u, t.run env r = (.ok a, u) → Proceeds m env e destination s u (f a)) :
    Proceeds m env e destination s t (r >>= f) := by
  constructor
  · cases hr : t.run env r with
    | mk outcome u =>
      cases outcome with
      | error failure =>
        rw [Session.run_bind_of_error (congrArg Prod.fst hr), hr]
        obtain ⟨hkind, hunchanged⟩ := herror failure u hr
        exact .failed hkind hunchanged
      | ok a =>
        rw [Session.run_bind_of_ok (congrArg Prod.fst hr), hr]
        exact (hok a u hr).ending
  · intro v hv hne
    rcases Session.mem_visited_bind hv with hv | ⟨a, u, hr, hv⟩
    · have hsame := pageText_of_aside (hdiff.symm.of_central hcentral) (hframe v hv)
      exact absurd (hsame.trans hsource) hne
    · exact (hok a u hr).onTheWay v hv hne

/-- Once the script has arrived, it is uninstalled from the old target, and what comes of that is told. -/
theorem Proceeds.leave {arrived : String} {f : Except Failure Bool → Routine Bool}
    (hdiff : m.DifferentPages s e.target destination) (hfound : Page.isInstalled (m.pageLines s e.target) e m.settings = .ok true)
    (hinstalled : m.installed env.source (e.withTarget destination) (m.pageText s destination) = .ok arrived)
    (hshows : m.Shows e destination s (m.pageText s e.target) arrived t) (hquiet : ∀ outcome, Quiet (f outcome))
    (hok : ∀ b (u : Session), (u.run env (f (.ok b))).1 = .ok true)
    (herror : ∀ cause (u : Session),
      (u.run env (f (.error cause))).1 = .error (.moveIncomplete e.displayName e.target destination cause)) :
    Proceeds m env e destination s t ((m.uninstallUnlocked e).attempt >>= f) := by
  have hframe := frame_uninstallUnlocked m e env t
  have hattempt := Session.run_attempt env t (m.uninstallUnlocked e)
  have haside := hframe.run
  have hhonest : (t.run env (m.uninstallUnlocked e)).1 ≠ .ok true → t.Unchanged (t.run env (m.uninstallUnlocked e)).2 :=
    honest_uninstallUnlocked.unchanged
  have houtcome := outcome_uninstallUnlocked m e env t
  rw [hshows.source] at houtcome
  constructor
  · rw [Session.run_bind_of_ok (congrArg Prod.fst hattempt), hattempt]
    generalize t.run env (m.uninstallUnlocked e) = run at houtcome hhonest haside
    -- Telling what has come of it changes nothing any more.
    have hquiet u outcome := Session.unchanged_run (hquiet outcome) env u
    have hincomplete {cause : Failure} {u : Session} (hu : t.Unchanged u)
        (hreason : (∃ n call message, env.outage n call = some message ∧ cause = .transport message) ∨
          Page.uninstalled e m.settings (m.pageText s e.target) = .error cause) :
        MoveEnd m env e destination s (u.run env (f (.error cause))) := by
      rw [show u.run env (f _) = (_, _) from Prod.ext (herror cause u) rfl]
      exact .incomplete hfound hreason hinstalled (hshows.of_unchanged (hu.trans (hquiet u (.error cause))))
    cases houtcome with
    | @refused n call message u refused => exact hincomplete (hhonest (by simp)) (Or.inl ⟨n, call, message, refused, rfl⟩)
    | failed failed => exact hincomplete (hhonest (by simp)) (Or.inr failed)
    | @done left u done page =>
      have hleft := (hshows.leave hdiff haside page).of_unchanged (hquiet u (.ok (decide (m.pageText t e.target ≠ left))))
      rw [show u.run env (f _) = (_, _) from Prod.ext (hok _ u) rfl]
      exact .done hfound done hinstalled hleft
  · intro v hv hne
    have hgoes : Session.Frame (m.siteOf e.target) (m.settings.targetTitle e.target) env t ((m.uninstallUnlocked e).attempt >>= f) :=
      hframe.attempt.bind fun outcome _ _ => .of_quiet (hquiet outcome)
    rw [pageText_of_aside (hdiff.of_central hshows.central) (hgoes v hv), hshows.arrival]
    exact hinstalled

/-! ## Moves -/

/-- What remains of a move goes on as it should if it does without the key. -/
theorem Proceeds.holding {key : String} {r : Routine Bool} (h : Proceeds m env e destination s t r) :
    Proceeds m env e destination s t (holding key r) where
  ending := by
    rw [run_holding]
    exact h.ending
  onTheWay u hu := h.onTheWay u (mem_visited_holding hu)

/-- If the script cannot be installed on the new target, nothing has changed. -/
theorem install_fails {failure : Failure} (ht : s.Unchanged t) (h : t.run env (m.install e) = (.error failure, u)) :
    failure.kind? ≠ some "MoveIncompleteError" ∧ s.Unchanged u := by
  have houtcome := outcome_install m e env t
  have hunchanged : (t.run env (m.install e)).1 ≠ .ok true → t.Unchanged (t.run env (m.install e)).2 :=
    honest_installUnlocked.holding.unchanged
  rw [h] at houtcome hunchanged
  refine ⟨?_, ht.trans (hunchanged (by simp))⟩
  cases houtcome with
  | refused refused => simp [Failure.kind?]
  | failed failed =>
    rw [installed_error failed]
    simp [Failure.kind?]

/-- Otherwise its page is what installing makes of it, and the old page is as it was. -/
theorem install_arrives {b : Bool} (hdiff : m.DifferentPages s e.target destination) (ht : s.Unchanged t)
    (h : t.run env (m.install (e.withTarget destination)) = (.ok b, u)) :
    ∃ arrived, m.installed env.source (e.withTarget destination) (m.pageText s destination) = .ok arrived ∧
      m.Shows e destination s (m.pageText s e.target) arrived u := by
  have houtcome := outcome_install m (e.withTarget destination) env t
  have hframe := (frame_install m (e.withTarget destination) env t).run
  rw [h] at houtcome hframe
  cases houtcome with
  | @done arrived u done page =>
    rw [show m.pageText t (e.withTarget destination).target = m.pageText s destination from pageText_of_text ht.text _] at done
    refine ⟨arrived, done, hframe.central.trans ht.central_eq_none, ?_, page, fun site title _ helse => ?_⟩
    · exact (pageText_of_aside (hdiff.symm.of_central ht.central_eq_none) hframe).trans (pageText_of_text ht.text _)
    · rw [hframe.text site title (helse.imp_right (And.imp_right (mt ht.central_eq_none.mp))), ht.text]

/-- A move between different pages goes on as it should from the start. -/
theorem proceeds_move (hdiff : m.DifferentPages s e.target destination) :
    Proceeds m env e destination s s (m.move e destination) := by
  have hne : destination ≠ e.target := by
    rintro rfl
    exact hdiff.elim (fun h => h rfl) fun h => h.1 rfl
  rw [move, if_neg hne]
  refine .holding (.bind hdiff Iff.rfl rfl (frame_fetch m e.target _ _ env s) ?_ fun page t hfetch => ?_)
  · intro failure t ht
    obtain ⟨message, rfl⟩ := fetch_error (congrArg Prod.fst ht)
    have hunchanged := unchanged_fetch m e.target env s
    rw [ht] at hunchanged
    exact ⟨by simp [Failure.kind?], hunchanged⟩
  have ht := unchanged_fetch m e.target env s
  rw [hfetch] at ht
  refine .bind hdiff ht.central_eq_none (pageText_of_text ht.text _) (.of_quiet (quiet_isInstalled m page e)) ?_
    fun found u hfound => ?_
  · intro failure u hu
    have hunchanged := Session.unchanged_run (quiet_isInstalled m page e) env t
    have hfailure := run_isInstalled_fst m page e env t
    rw [hu] at hunchanged hfailure
    rw [ofUrl_error hfailure.symm]
    exact ⟨by simp [Failure.kind?], ht.trans hunchanged⟩
  have hu := Session.unchanged_run (quiet_isInstalled m page e) env t
  rw [hfound] at hu
  have hu := ht.trans hu
  cases found with
  | false =>
    refine ⟨.failed (by simp [Failure.kind?]) hu, fun v hv hne => absurd ?_ hne⟩
    rw [List.mem_singleton.mp hv]
    exact pageText_of_text hu.text _
  | true =>
    refine .bind hdiff hu.central_eq_none (pageText_of_text hu.text _) (frame_install m (e.withTarget destination) env u)
      (fun failure v hv => install_fails hu hv) fun added v hv => ?_
    obtain ⟨arrived, hinstalled, hshows⟩ := install_arrives hdiff hu hv
    have hpage := isInstalled_ok hfound
    rw [(fetch_ok hfetch).1] at hpage
    refine .leave hdiff hpage hinstalled hshows (fun outcome => ?_) (fun _ _ => rfl) fun _ _ => rfl
    cases outcome with
    | ok _ => exact (quiet_say _ _).bind fun _ => Quiet.pure true
    | error cause => exact (quiet_say _ _).bind fun _ => .done _

/-- What uninstalling makes of a page that counts as loading a script is settled if the script can be removed, and only then. -/
theorem exists_uninstalled_iff {text : String} (found : Page.isInstalled (lines text) e m.settings = .ok true) :
    (∃ left, Page.uninstalled e m.settings text = .ok left) ↔
      Page.Comparable (lines text) e m.settings ∧ ¬ Page.Buried (lines text) e m.settings := by
  rw [← Page.removable_iff found, Page.uninstalled]
  cases Page.removal (lines text) e m.settings with
  | error failure => exact iff_of_false (fun ⟨_, h⟩ => by cases h) fun ⟨_, h⟩ => by cases h
  | ok r => exact iff_of_true ⟨_, rfl⟩ ⟨r, rfl⟩

/-- A move never loses its script. It never waits for a key that it holds itself, it ends in one of the three ways, and in every
state on its way in which the old page is another one than at the start, the new page is what installing has made of it: the script
was there before or its statement has been added. After a move that has left the script on both pages, whatever the cause, a later
uninstalling with no refused call comes to what the old text decides. It leaves the two pages of a move that is done exactly if the
script can be compared with the items of the old page and is not buried in the wrappers there. -/
theorem move_never_loses_the_script_iff (m : Manager) (e : Entry) (destination : String) (env : Surroundings) (s : Session)
    (hdiff : m.DifferentPages s e.target destination)
    (hkeys : Lock.keyOf (lockKey destination e.displayName) ≠ Lock.keyOf (lockKey e.target e.displayName)) :
    Keeps [] [] (m.move e destination) ∧ MoveEnd m env e destination s (s.run env (m.move e destination)) ∧
      (∀ u ∈ s.visited env (m.move e destination), m.pageText u e.target ≠ m.pageText s e.target →
        m.installed env.source (e.withTarget destination) (m.pageText s destination) = .ok (m.pageText u destination)) ∧
      ∀ cause t, s.run env (m.move e destination) = (.error (.moveIncomplete e.displayName e.target destination cause), t) →
        ∀ env' : Surroundings, env'.Calm →
          (t.run env' (m.uninstall e)).1 =
              (Page.uninstalled e m.settings (m.pageText s e.target)).map (fun left => decide (m.pageText s e.target ≠ left)) ∧
            ((∃ left arrived, Page.uninstalled e m.settings (m.pageText s e.target) = .ok left ∧
                m.installed env.source (e.withTarget destination) (m.pageText s destination) = .ok arrived ∧
                m.Shows e destination s left arrived (t.run env' (m.uninstall e)).2) ↔
              Page.Comparable (m.pageLines s e.target) e m.settings ∧ ¬ Page.Buried (m.pageLines s e.target) e m.settings) := by
  have hproceeds : Proceeds m env e destination s s (m.move e destination) := proceeds_move hdiff
  refine ⟨keeps_move hkeys, hproceeds.ending, hproceeds.onTheWay, fun cause t hrun env' calm => ?_⟩
  have hending := hproceeds.ending
  rw [hrun] at hending
  cases hending with
  | failed kind _ => exact absurd rfl kind
  | @incomplete _ arrived _ found _ installed pages =>
    obtain ⟨hfst, hpages⟩ := pages.recover hdiff calm
    refine ⟨hfst, ?_⟩
    rw [pageLines, ← exists_uninstalled_iff found]
    constructor
    · rintro ⟨left, _, hleft, -⟩
      exact ⟨left, hleft⟩
    · rintro ⟨left, hleft⟩
      exact ⟨left, arrived, hleft, installed, hpages left hleft⟩

/-- The old page cannot be saved after the script has arrived, and uninstalling the script later finishes the move. -/
theorem move_never_loses_the_script_iff_interrupted :
    ∃ (m : Manager) (e : Entry) (env : Surroundings) (s t : Session),
      m.DifferentPages s e.target "vector" ∧
      Lock.keyOf (lockKey "vector" e.displayName) ≠ Lock.keyOf (lockKey e.target e.displayName) ∧
      s.run env (m.move e "vector") = (.error (.moveIncomplete "User:A/x.js" "common" "vector" (.transport "refused")), t) ∧
      Keeps [] [] (m.move e "vector") ∧ MoveEnd m env e "vector" s (s.run env (m.move e "vector")) ∧
      (∀ u ∈ s.visited env (m.move e "vector"), m.pageText u e.target ≠ m.pageText s e.target →
        m.installed env.source (e.withTarget "vector") (m.pageText s "vector") = .ok (m.pageText u "vector")) ∧
      m.pageText (t.run {} (m.uninstall e)).2 e.target = "foo();" := by
  let m : Manager := { settings := { serverName := "en.wikipedia.org", userName := "U" } }
  let e := Entry.ofPage "User:A/x.js" (by decide) none "common" false
  let wiki : Wiki := { pages := [("User:U/common.js", "importScript('User:A/x.js');\nfoo();")] }
  let s : Session := { home := { wiki } }
  let env : Surroundings := { outage := fun _ call => if call = .save "User:U/common.js" then some "refused" else none }
  have hdiff : m.DifferentPages s e.target "vector" := Or.inl (by decide +kernel)
  have hkeys : Lock.keyOf (lockKey "vector" e.displayName) ≠ Lock.keyOf (lockKey e.target e.displayName) := by decide +kernel
  have hrun : (s.run env (m.move e "vector")).1 =
      .error (.moveIncomplete e.displayName e.target "vector" (.transport "refused")) := by decide +kernel
  have huninstalled : Page.uninstalled e m.settings (m.pageText s e.target) = .ok "foo();" := by decide +kernel
  have hfound : Page.isInstalled (m.pageLines s e.target) e m.settings = .ok true := by decide +kernel
  -- From here on only these facts count, and nothing is computed.
  have hnames : e.displayName = "User:A/x.js" ∧ e.target = "common" := ⟨rfl, rfl⟩
  have calm : ({} : Surroundings).Calm := fun _ _ => rfl
  clear_value m e env s
  obtain ⟨hkept, hending, honTheWay, hlater⟩ := move_never_loses_the_script_iff m e "vector" env s hdiff hkeys
  have hremovable := (exists_uninstalled_iff hfound).mp ⟨_, huninstalled⟩
  obtain ⟨left, arrived, hleft, -, hshows⟩ := (hlater _ _ (Prod.ext hrun rfl) {} calm).2.mpr hremovable
  rw [hnames.1, hnames.2] at hrun
  refine ⟨m, e, env, s, (s.run env (m.move e "vector")).2, hdiff, hkeys, Prod.ext hrun rfl, hkept, hending, honTheWay, ?_⟩
  rw [hshows.source]
  exact Except.ok.inj (hleft.symm.trans huninstalled)

/-- The old page has a wrapper without item markers, of which only the first call is read as an item. When the script of the second
call is moved and the old page cannot be read again, the script is left on both pages, and uninstalling it later does not find it. -/
theorem uninstalling_does_not_finish_the_move :
    ∃ (m : Manager) (e : Entry) (env : Surroundings) (s t : Session),
      m.DifferentPages s e.target "vector" ∧
      Lock.keyOf (lockKey "vector" e.displayName) ≠ Lock.keyOf (lockKey e.target e.displayName) ∧
      m.pageLines s e.target = ["// SM-CAPTURE-START", "mw.loader.load('//a.org/w/index.php?title=X.js');", "importScript('Y.js');",
        "// SM-CAPTURE-END"] ∧
      s.run env (m.move e "vector") = (.error (.moveIncomplete "Y.js" "common" "vector" (.transport "refused")), t) ∧
      (t.run {} (m.uninstall e)).1 = .error (.notInstalled "Y.js" "common") ∧
      m.pageText (t.run {} (m.uninstall e)).2 e.target = m.pageText s e.target := by
  let m : Manager := { settings := { serverName := "a.org", userName := "U" } }
  let e := Entry.ofPage "Y.js" (by decide) none "common" false
  let page := ["// SM-CAPTURE-START", "mw.loader.load('//a.org/w/index.php?title=X.js');", "importScript('Y.js');",
    "// SM-CAPTURE-END"]
  let s : Session := { home := { wiki := { pages := [("User:U/common.js", unlines page)] } } }
  let env : Surroundings :=
    { outage := fun n call => if n = 3 ∧ call = .read "User:U/common.js" then some "refused" else none }
  have hdiff : m.DifferentPages s e.target "vector" := Or.inl (by decide +kernel)
  have hkeys : Lock.keyOf (lockKey "vector" e.displayName) ≠ Lock.keyOf (lockKey e.target e.displayName) := by decide +kernel
  have htext : m.pageText s e.target = unlines page := by decide +kernel
  have hpage : m.pageLines s e.target = page := pageLines_eq htext (by simp [page]) (by decide +kernel)
  have hrun : (s.run env (m.move e "vector")).1 =
      .error (.moveIncomplete e.displayName e.target "vector" (.transport "refused")) := by decide +kernel
  have hremoval : Page.removal page e m.settings = .error (.notInstalled e.displayName e.target) := by decide +kernel
  have hnames : e.displayName = "Y.js" ∧ e.target = "common" := ⟨rfl, rfl⟩
  -- From here on only these facts count, and nothing is computed.
  clear_value m e env s
  have hmissing : Page.uninstalled e m.settings (m.pageText s e.target) = .error (.notInstalled e.displayName e.target) := by
    rw [Page.uninstalled_eq_error, ← hremoval, ← hpage]
    rfl
  have hending : MoveEnd m env e "vector" s (s.run env (m.move e "vector")) := (proceeds_move hdiff).ending
  generalize hend : s.run env (m.move e "vector") = run at hrun hending
  obtain ⟨outcome, t⟩ := run
  obtain rfl : outcome = _ := hrun
  cases hending with
  | failed kind _ => exact absurd rfl kind
  | incomplete _ _ _ pages =>
    have hlater := (pages.recover hdiff (fun _ _ => rfl : ({} : Surroundings).Calm)).1
    rw [hmissing] at hlater
    have hunchanged : t.Unchanged (t.run {} (m.uninstall e)).2 :=
      honest_uninstallUnlocked.holding.unchanged fun hdone => nomatch hlater.symm.trans hdone
    have hsame := (pageText_of_text hunchanged.text e.target).trans pages.source
    rw [hnames.1, hnames.2] at hend hlater
    exact ⟨m, e, env, s, t, hdiff, hkeys, hpage, hend, hlater, hsame⟩

end Manager

end UserScripts
