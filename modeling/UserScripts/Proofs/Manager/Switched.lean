import UserScripts.Proofs.Manager.Outcome
import UserScripts.Proofs.Page.Switched

/-!
# Switching scripts off and on

A run that switches a script off or on finds the statements of the script, and the page tells the same statements afterwards, so the
run can be repeated without effect and taken back. Main statement: `switching_repeats_and_reverses`.
-/

namespace UserScripts.Manager

open UserScripts.Text Routine

variable {m : Manager} {e : Entry} {env : Surroundings} {s t : Session} {b disabled : Bool}

/-- Switching a script off or on comes to what the lines of the page decide. -/
theorem outcome_setDisabled (m : Manager) (e : Entry) (disabled : Bool) (env : Surroundings) (s : Session) :
    Outcome m e.target env s
      (Page.setDisabled (m.pageLines s e.target) e disabled m.settings >>= fun new => .ok (unlines new))
      (s.run env (m.setDisabled e disabled)) := by
  rw [setDisabled, run_locked]
  refine .after_fetch fun u ready => ?_
  refine .after_notes ready fun u ready => ?_
  exact .after_quiet (Quiet.ofExcept _) (Session.run_ofExcept_fst _ _ _) ready fun new u _ ready => outcome_commit ready

section

variable (found : Page.ownLines (m.pageLines s e.target) e m.settings ≠ [])

include found

/-- Without refused calls the statements of a script can be switched off and on. -/
theorem exists_run_setDisabled (calm : env.Calm) (disabled : Bool) : ∃ b t, s.run env (m.setDisabled e disabled) = (.ok b, t) := by
  have hfst := (outcome_setDisabled m e disabled env s).of_calm calm
  rw [Page.setDisabled_eq found] at hfst
  exact ⟨_, Session.exists_run_ok hfst⟩

/-- The lines of the page after a run that has switched a script off or on. -/
theorem pageLines_of_setDisabled (h : s.run env (m.setDisabled e disabled) = (.ok b, t)) :
    m.pageLines t e.target =
        Page.switchAt disabled (Page.ownLines (m.pageLines s e.target) e m.settings) (m.pageLines s e.target) ∧
      (b = true ↔ m.pageText s e.target ≠ m.pageText t e.target) := by
  obtain ⟨new, hnew, htext, hchanged⟩ := setDisabled_ok h
  rw [Page.setDisabled_eq found] at hnew
  obtain rfl := Except.ok.inj hnew
  refine ⟨pageLines_eq htext ?_ (Page.isLine_switchAt fun l hl => isLine_of_mem_lines hl), by rw [htext, hchanged]⟩
  intro hempty
  have hlength := congrArg List.length hempty
  rw [Page.length_switchAt, List.length_nil, List.length_eq_zero_iff] at hlength
  exact lines_ne_nil _ hlength

/-- A second run changes nothing. -/
theorem setDisabled_again {env' : Surroundings} {u : Session} {b' : Bool} (h : s.run env (m.setDisabled e disabled) = (.ok b, t))
    (h' : t.run env' (m.setDisabled e disabled) = (.ok b', u)) : b' = false := by
  obtain ⟨hlines, -⟩ := pageLines_of_setDisabled found h
  have hown : Page.ownLines (m.pageLines t e.target) e m.settings = Page.ownLines (m.pageLines s e.target) e m.settings := by
    rw [hlines, Page.ownLines_switchAt]
  obtain ⟨hlines', hchanged⟩ := pageLines_of_setDisabled (by rwa [hown]) h'
  rw [hown, hlines, Page.switchAt_again, ← hlines] at hlines'
  rw [← Bool.not_eq_true, hchanged, not_not, ← unlines_pageLines, ← unlines_pageLines, hlines']

/-- A run that switches on what a run has switched off gives the page back. -/
theorem setDisabled_back {env' : Surroundings} {u : Session} {b' : Bool}
    (on : ∀ i ∈ Page.ownLines (m.pageLines s e.target) e m.settings, ∀ line, (m.pageLines s e.target)[i]? = some line →
      Page.isDisabled line = false)
    (h : s.run env (m.setDisabled e true) = (.ok b, t)) (h' : t.run env' (m.setDisabled e false) = (.ok b', u)) :
    b' = true ∧ m.pageText u e.target = m.pageText s e.target := by
  obtain ⟨hlines, -⟩ := pageLines_of_setDisabled found h
  have hown : Page.ownLines (m.pageLines t e.target) e m.settings = Page.ownLines (m.pageLines s e.target) e m.settings := by
    rw [hlines, Page.ownLines_switchAt]
  obtain ⟨hlines', hchanged⟩ := pageLines_of_setDisabled (by rwa [hown]) h'
  rw [hown, hlines, Page.switchAt_back on] at hlines'
  have htext : m.pageText u e.target = m.pageText s e.target := by rw [← unlines_pageLines, hlines', unlines_pageLines]
  refine ⟨hchanged.mpr fun hsame => ?_, htext⟩
  -- the first statement is commented out in between
  obtain ⟨i, hi⟩ := List.exists_mem_of_ne_nil _ found
  obtain ⟨line, a, hline, ha, hnew, -⟩ := Page.ofLine?_switchAt hi true
  have hsameLine : Page.switchLine true line = line := by
    rw [← hlines, pageLines, hsame.trans htext, ← pageLines, hline] at hnew
    exact (Option.some.inj hnew).symm
  have hoff := Page.isDisabled_switchLine true ha
  rw [hsameLine, on i hi line hline] at hoff
  cases hoff

end

/-- If statements outside the complete wrappers load a script, it can be switched off and on while no call is refused. Each of them then
loads what it has loaded and is switched off or on; the other lines, the lines on which the script is found, the wrappers and their
items are as before. Doing so again changes nothing and submits no edit. If all the statements were switched on, switching the script
off and on again gives back the text of the page. -/
theorem switching_repeats_and_reverses (m : Manager) (e : Entry) (disabled : Bool) (env : Surroundings) (s : Session)
    (found : Page.ownLines (m.pageLines s e.target) e m.settings ≠ []) :
    (env.Calm → ∃ b t, s.run env (m.setDisabled e disabled) = (.ok b, t)) ∧
      ∀ b t, s.run env (m.setDisabled e disabled) = (.ok b, t) →
        Page.Switched e m.settings disabled (m.pageLines s e.target) (m.pageLines t e.target) ∧
        (∀ env' : Surroundings, (env'.Calm → ∃ u, t.run env' (m.setDisabled e disabled) = (.ok false, u)) ∧
          ∀ b' u, t.run env' (m.setDisabled e disabled) = (.ok b', u) →
            b' = false ∧ t.submissions env' (m.setDisabled e disabled) = []) ∧
        (disabled = true →
          (∀ i ∈ Page.ownLines (m.pageLines s e.target) e m.settings, ∀ line a, (m.pageLines s e.target)[i]? = some line →
            Entry.ofLine? line e.target = some a → a.disabled = false) →
          ∀ env' : Surroundings, (env'.Calm → ∃ u, t.run env' (m.setDisabled e false) = (.ok true, u)) ∧
            ∀ b' u, t.run env' (m.setDisabled e false) = (.ok b', u) → m.pageText u e.target = m.pageText s e.target) := by
  refine ⟨fun calm => exists_run_setDisabled found calm disabled, fun b t h => ?_⟩
  have hlines := (pageLines_of_setDisabled found h).1
  have hswitched : Page.Switched e m.settings disabled (m.pageLines s e.target) (m.pageLines t e.target) := by
    rw [hlines]
    exact Page.switched_switchAt _ e m.settings disabled
  have found' : Page.ownLines (m.pageLines t e.target) e m.settings ≠ [] := by rwa [hswitched.ownLines]
  refine ⟨hswitched, fun env' => ⟨fun calm => ?_, fun b' u h' => ?_⟩, ?_⟩
  · obtain ⟨b', u, h'⟩ := exists_run_setDisabled found' calm disabled
    exact ⟨u, setDisabled_again found h h' ▸ h'⟩
  · have hfalse := setDisabled_again found h h'
    rw [hfalse] at h'
    exact ⟨hfalse, honest_setDisabled.silent (congrArg Prod.fst h')⟩
  · rintro rfl hon env'
    have on : ∀ i ∈ Page.ownLines (m.pageLines s e.target) e m.settings, ∀ line, (m.pageLines s e.target)[i]? = some line →
        Page.isDisabled line = false := by
      intro i hi line hline
      obtain ⟨-, line', a, hline', ha, -⟩ := Page.mem_ownLines.mp hi
      obtain rfl := Option.some.inj (hline'.symm.trans hline)
      rw [← Page.disabled_of_ofLine? ha]
      exact hon i hi _ a hline ha
    refine ⟨fun calm => ?_, fun b' u h' => (setDisabled_back found on h h').2⟩
    obtain ⟨b', u, h'⟩ := exists_run_setDisabled found' calm false
    exact ⟨u, (setDisabled_back found on h h').1 ▸ h'⟩

/-- Two statements of a script are switched off, one of them indented, and the one in a wrapper is not. -/
theorem switching_repeats_and_reverses_beside_wrapper :
    ∃ (m : Manager) (e : Entry) (s t u : Session),
      m.pageLines s "common" = ["// SM-CAPTURE-START", "importScript('User:A/x.js');", "// SM-CAPTURE-END",
        "\timportScript( 'User:A/x.js' ); // one", "mw.loader.load('//a.org/w/index.php?title=User:A/x.js&action=raw');"] ∧
      Page.ownLines (m.pageLines s "common") e m.settings = [3, 4] ∧ s.run {} (m.setDisabled e true) = (.ok true, t) ∧
      (m.pageLines t "common")[1]? = some "importScript('User:A/x.js');" ∧
      (∀ i ∈ [3, 4], ∃ line a, (m.pageLines t "common")[i]? = some line ∧ Entry.ofLine? line "common" = some a ∧ a.disabled = true) ∧
      (∃ u, t.run {} (m.setDisabled e true) = (.ok false, u)) ∧ t.submissions {} (m.setDisabled e true) = [] ∧
      t.run {} (m.setDisabled e false) = (.ok true, u) ∧ m.pageText u "common" = m.pageText s "common" := by
  let m : Manager := { settings := { serverName := "a.org", userName := "U" } }
  let e := Entry.ofPage "User:A/x.js" (by decide) none "common" false
  let page := ["// SM-CAPTURE-START", "importScript('User:A/x.js');", "// SM-CAPTURE-END", "\timportScript( 'User:A/x.js' ); // one",
    "mw.loader.load('//a.org/w/index.php?title=User:A/x.js&action=raw');"]
  let s : Session := { home := { wiki := { pages := [("User:U/common.js", unlines page)] } } }
  have htarget : e.target = "common" := rfl
  have htext : m.pageText s "common" = unlines page := rfl
  have hfacts : (∀ l ∈ page, IsLine l) ∧ Page.ownLines page e m.settings = [3, 4] ∧
      unlines page ≠ unlines (Page.switchAt true [3, 4] page) ∧
      (∀ i ∈ [3, 4], ∀ line ∈ page[i]?, ∀ a ∈ Entry.ofLine? line "common", a.disabled = false) := by decide +kernel
  clear_value m e s
  obtain ⟨hisLine, hown, hdiff, hon⟩ := hfacts
  have hpage : m.pageLines s "common" = page := pageLines_eq htext (by simp [page]) hisLine
  have found : Page.ownLines (m.pageLines s e.target) e m.settings ≠ [] := by
    rw [htarget, hpage, hown]
    decide
  have calm : ({} : Surroundings).Calm := fun _ _ => rfl
  obtain ⟨hsucceeds, hall⟩ := switching_repeats_and_reverses m e true {} s found
  obtain ⟨b, t, ht⟩ := hsucceeds calm
  obtain ⟨hlines, hchanged⟩ := pageLines_of_setDisabled found ht
  rw [htarget, ← unlines_pageLines, ← unlines_pageLines, ← htarget, hlines, htarget, hpage, hown] at hchanged
  obtain rfl := hchanged.mpr hdiff
  obtain ⟨hswitched, hagain, hback⟩ := hall true t ht
  rw [htarget, hpage] at hswitched hback
  rw [hown] at hback
  obtain ⟨v, hv⟩ := (hagain {}).1 calm
  have hrestored := hback rfl (fun i hi line a hline ha => hon i hi line hline a ha) {}
  obtain ⟨u, hu⟩ := hrestored.1 calm
  refine ⟨m, e, s, t, u, hpage, hpage ▸ hown, ht, hswitched.others 1 (by rw [hown]; decide), fun i hi => ?_, ⟨v, hv⟩,
    ((hagain {}).2 _ _ hv).2, hu, hrestored.2 _ _ hu⟩
  obtain ⟨-, line, a, -, hline, -, ha⟩ := hswitched.turned i (hown ▸ hi)
  exact ⟨line, _, hline, htarget ▸ ha, rfl⟩

end UserScripts.Manager
