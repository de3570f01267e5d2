import UserScripts.Proofs.Manager.Complete
import UserScripts.Proofs.Manager.FailOpen
import UserScripts.Proofs.Page.Appended

/-!
# Installing and taking it back

What an installation makes of a page that does not load the script, which edit it submits for that, and what a second installation and
a removal do afterwards. Main statement: `install_appends_once`.
-/

namespace UserScripts.Manager

open UserScripts.Text Routine

variable {m : Manager} {e e' : Entry} {text : String} {env env' : Surroundings} {s t u : Session} {b b' : Bool}

/-- After a part that submits nothing, what is submitted is what the rest submits. -/
theorem submissions_after {α β : Type} {r : Routine α} {f : α → Routine β} {a : α} (hsilent : s.submissions env r = [])
    (h : s.run env r = (.ok a, u)) : s.submissions env (r >>= f) = u.submissions env (f a) := by
  rw [Session.submissions_bind, hsilent, h]
  rfl

/-- The edit of an installation is that of the page that was read and of the statement of the entry. -/
theorem submissions_install (h : s.run env (m.install e) = (.ok true, t)) (hannotated : m.annotated env.source e = .ok e')
    (hstatement : e'.statement m.settings = .ok text) :
    s.submissions env (m.install e) = [(m.siteOf e.target,
      ⟨m.settings.targetTitle e.target, Summary.ofEntry e' "summary-install" m.settings, Page.install (m.pageLines s e.target) text⟩)] := by
  rw [install, run_locked] at h
  rw [install, locked, submissions_holding, installUnlocked]
  obtain ⟨page, u, hfetch, h⟩ := Session.run_bind_ok h
  obtain ⟨hpage, -, -⟩ := fetch_ok hfetch
  obtain ⟨found, u₁, hfound, -, h⟩ := Session.run_bind_ok_of_quiet (quiet_isInstalled m page e) h
  rw [submissions_after (submissions_fetch m e.target env s) hfetch,
    submissions_after (Session.submissions_of_quiet (quiet_isInstalled m page e) env u) hfound]
  cases found with
  | true =>
    obtain ⟨_, u₂, -, -, h⟩ := Session.run_bind_ok_of_quiet (quiet_say _ _) h
    cases (Session.run_pure_ok h).1
  | false =>
    obtain ⟨e'', u₂, hannotate, -, h⟩ := Session.run_bind_ok_of_quiet (quiet_annotate m e) h
    obtain ⟨statement, hwritten, h⟩ := Session.run_ofExcept_bind_ok h
    obtain ⟨_, u₃, hsubmit, -⟩ := Session.run_bind_ok h
    -- the sources decide what the documentation says, so this is the entry with the link
    obtain rfl : e'' = e' := by
      have hfst := run_annotate_fst m e env u₁
      rw [hannotate, hannotated] at hfst
      exact Except.ok.inj hfst
    obtain rfl := Except.ok.inj ((ofUrl_ok hwritten).symm.trans hstatement)
    have hexcept : u₂.run env (Routine.ofExcept (Failure.ofUrl (e''.statement m.settings))) = (.ok statement, u₂) :=
      Prod.ext hwritten rfl
    rw [if_neg Bool.false_ne_true, submissions_after (Session.submissions_of_quiet (quiet_annotate m e) env u₁) hannotate,
      submissions_after (Session.submissions_of_quiet (Quiet.ofExcept _) env u₂) hexcept, Session.submissions_bind, submissions_submit,
      hsubmit, (annotated_ok hannotated).target, hpage]
    rfl

/-- An installation that succeeds on a page without the script adds the statement after the last line that is not blank. -/
theorem pageLines_of_install (label : Unbroken (e.linkLabel m.settings).toList)
    (missing : Page.isInstalled (m.pageLines s e.target) e m.settings = .ok false) (hannotated : m.annotated env.source e = .ok e')
    (hstatement : e'.statement m.settings = .ok text) (h : s.run env (m.install e) = (.ok b, t)) :
    m.pageText t e.target = Page.withStatement (m.pageLines s e.target) text ∧
      m.pageLines t e.target = dropEndBlankLines (m.pageLines s e.target) ++ [text, ""] := by
  have hinstalled : m.installed env.source e (m.pageText s e.target) = .ok (m.pageText t e.target) :=
    (h ▸ outcome_install m e env s : Outcome m e.target env s _ (.ok b, t)).of_ok
  rw [installed_of_missing missing hannotated, hstatement] at hinstalled
  have htext : m.pageText t e.target = Page.withStatement (m.pageLines s e.target) text := (Except.ok.inj hinstalled).symm
  refine ⟨htext, ?_⟩
  rw [pageLines, htext]
  exact Page.lines_withStatement (fun l hl => isLine_of_mem_lines hl)
    (Entry.isLine_statement label (annotated_ok hannotated).target hstatement)

/-- The page of a target is a page without the script, with a statement at its end that is read as one of the script. -/
structure Appended (m : Manager) (e : Entry) (ls : List String) (text : String) (t : Session) : Prop where
  missing : Page.isInstalled ls e m.settings = .ok false
  tame : Wrapper.Tame text
  loads : Page.byStatement e m.settings text = true
  pageText : m.pageText t e.target = Page.withStatement ls text
  pageLines : m.pageLines t e.target = dropEndBlankLines ls ++ [text, ""]

section

variable {ls : List String} (added : Appended m e ls text t)

include added

/-- The script is found on a page at the end of which its statement stands. -/
theorem Appended.found : Page.isInstalled (m.pageLines t e.target) e m.settings = .ok true := by
  rw [Page.isInstalled_eq_ite, if_pos]
  rw [added.pageLines, List.any_append, List.any_cons, Page.loadsScript, added.loads]
  simp

/-- A script that has been added is not added again. -/
theorem Appended.install_again (h : t.run env' (m.install e) = (.ok b', u)) :
    b' = false ∧ t.submissions env' (m.install e) = [] := by
  have hb := (install_ok h).1
  rw [added.found] at hb
  have hfalse : b' = false := by simpa using (Except.ok.inj hb).symm
  exact ⟨hfalse, (operation_is_honest m e.target (.install e) env' t).silent (by rw [← hfalse]; exact congrArg Prod.fst h)⟩

/-- Removing a script that has been added takes off the statement. -/
theorem Appended.removal : Page.removal (m.pageLines t e.target) e m.settings =
    .ok { lines := [(dropEndBlankLines ls).length], items := none } := by
  rw [added.pageLines]
  exact Page.removal_appended added.missing added.tame added.loads

/-- Taking the statement away again leaves the page as it was, but for the blanks at its end. -/
theorem Appended.apply_removal : unlines (Removal.apply { lines := [(dropEndBlankLines ls).length], items := none }
    (m.pageLines t e.target) m.settings.fallbackDelay) = if Page.body ls = "" then "" else Page.body ls ++ "\n" := by
  rw [added.pageLines, Page.apply_appended]
  exact Page.unlines_dropEndBlankLines_concat ls

/-- The page with the statement is not the one that taking it away leaves. -/
theorem Appended.pageText_ne : m.pageText t e.target ≠ if Page.body ls = "" then "" else Page.body ls ++ "\n" := by
  intro h
  rw [added.pageText, Page.withStatement_eq_ite, String.append_assoc] at h
  -- the statement comes with a line feed
  have hlength := congrArg String.length h
  simp only [String.length_append] at hlength
  have hone : "\n".length = 1 := by decide
  omega

/-- Removing a script that has been added changes the page, and leaves what preceded the statement. -/
theorem Appended.uninstall (h : t.run env' (m.uninstall e) = (.ok b', u)) :
    b' = true ∧ m.pageText u e.target = if Page.body ls = "" then "" else Page.body ls ++ "\n" := by
  obtain ⟨r, hremoval, hpage, hchanged⟩ := uninstall_ok h
  obtain rfl := Except.ok.inj (added.removal.symm.trans hremoval)
  rw [added.apply_removal] at hpage hchanged
  exact ⟨hchanged.mpr added.pageText_ne, hpage⟩

/-- In a calm run, an uninstall of the script finds it and changes the page. -/
theorem Appended.exists_run_uninstall (calm : env'.Calm) : ∃ u, t.run env' (m.uninstall e) = (.ok true, u) :=
  ⟨_, (uninstall_of_removal calm added.removal (by rw [added.apply_removal]; exact added.pageText_ne)).1⟩

end

/-- If a page does not load a script, and the script has a statement with the link to its documentation, installing it succeeds while no
call is refused. The page then is what it was up to its last line that is not blank, a line feed, and the statement with a line feed. That
is sent as an addition exactly if the page was empty, or had nothing but a line feed after that line. If moreover the statement is read as
one of the script, installing again says that nothing has changed and submits no edit, and removing the script takes the statement back. -/
theorem install_appends_once (m : Manager) (e e' : Entry) (env : Surroundings) (s : Session) (text : String)
    (label : Unbroken (e.linkLabel m.settings).toList)
    (missing : Page.isInstalled (m.pageLines s e.target) e m.settings = .ok false)
    (annotated : m.annotated env.source e = .ok e') (statement : e'.statement m.settings = .ok text) :
    (env.Calm → ∃ t, s.run env (m.install e) = (.ok true, t)) ∧
      ∀ b t, s.run env (m.install e) = (.ok b, t) →
        b = true ∧
        m.pageText t e.target = (if Page.body (m.pageLines s e.target) = "" then "" else Page.body (m.pageLines s e.target) ++ "\n") ++
          text ++ "\n" ∧
        s.submissions env (m.install e) = [(m.siteOf e.target,
          ⟨m.settings.targetTitle e.target, Summary.ofEntry e' "summary-install" m.settings,
            if m.pageText s e.target = "" ∨ Page.body (m.pageLines s e.target) ≠ "" ∧
                m.pageText s e.target = Page.body (m.pageLines s e.target) ++ "\n"
              then .append (text ++ "\n") else .replace (m.pageText t e.target)⟩)] ∧
        ∀ parsed, Entry.ofLine? text e.target = some parsed → parsed.sameScript e m.settings = true → ∀ env' : Surroundings,
          (env'.Calm → (∃ u, t.run env' (m.install e) = (.ok false, u)) ∧ ∃ u, t.run env' (m.uninstall e) = (.ok true, u)) ∧
          (∀ b' u, t.run env' (m.install e) = (.ok b', u) → b' = false ∧ t.submissions env' (m.install e) = []) ∧
          ∀ b' u, t.run env' (m.uninstall e) = (.ok b', u) → b' = true ∧
            m.pageText u e.target =
              if Page.body (m.pageLines s e.target) = "" then "" else Page.body (m.pageLines s e.target) ++ "\n" := by
  constructor
  · intro calm
    have houtcome := outcome_install m e env s
    have hinstalled := installed_of_missing missing annotated
    rw [statement] at hinstalled
    rw [hinstalled] at houtcome
    have hdiff := installed_ne_of_missing missing hinstalled
    exact ⟨_, Prod.ext (houtcome.changed_of_calm calm hdiff).1 rfl⟩
  intro b t h
  have hb := (install_ok h).1
  rw [missing] at hb
  obtain rfl : b = true := by simpa using (Except.ok.inj hb).symm
  obtain ⟨htext, hlines⟩ := pageLines_of_install label missing annotated statement h
  have isLine : ∀ l ∈ m.pageLines s e.target, IsLine l := fun l hl => isLine_of_mem_lines hl
  refine ⟨rfl, by rw [htext, Page.withStatement_eq_ite], ?_, fun parsed hparsed hsame env' => ?_⟩
  · rw [submissions_install h annotated statement, htext, ← unlines_pageLines m s,
      Page.install_eq isLine (Entry.exists_toList_statement statement)]
  · have added : Appended m e (m.pageLines s e.target) text t :=
      ⟨missing, Entry.tame_statement statement, by rw [Page.byStatement, hparsed]; exact hsame, htext, hlines⟩
    exact ⟨fun calm => ⟨Session.exists_run_ok ((install_eq_false_iff calm).mpr added.found), added.exists_run_uninstall calm⟩,
      fun b' u h' => added.install_again h', fun b' u h' => added.uninstall h'⟩

/-- A page that ends with blank lines and has two markers that enclose nothing. -/
theorem install_appends_once_after_markers :
    ∃ (m : Manager) (e : Entry) (env : Surroundings) (s t u : Session),
      m.pageText s e.target = "// SM-CAPTURE-END\n// SM-CAPTURE-START\n \n" ∧ s.run env (m.install e) = (.ok true, t) ∧
      m.pageText t e.target = "// SM-CAPTURE-END\n// SM-CAPTURE-START\n" ++
        "mw.loader.load('//a.org/w/index.php?title=X.js&action=raw&ctype=text/javascript'); // label-backlink [[Help:X]]" ++ "\n" ∧
      (∃ v, t.run {} (m.install e) = (.ok false, v)) ∧ t.submissions {} (m.install e) = [] ∧
      t.run {} (m.uninstall e) = (.ok true, u) ∧ m.pageText u e.target = "// SM-CAPTURE-END\n// SM-CAPTURE-START\n" := by
  let m : Manager := { settings := { serverName := "a.org", userName := "U" }, linksDocs := true }
  let e := Entry.ofPage "X.js" (by decide) none "common" false
  let e' := e.withDocLink "Help:X"
  let env : Surroundings := { source := fun _ _ => .ok "// @documentation Help:X" }
  let page := ["// SM-CAPTURE-END", "// SM-CAPTURE-START", " ", ""]
  let text := "mw.loader.load('//a.org/w/index.php?title=X.js&action=raw&ctype=text/javascript'); // label-backlink [[Help:X]]"
  let s : Session := { home := { wiki := { pages := [("User:U/common.js", unlines page)] } } }
  have htext : m.pageText s e.target = unlines page := rfl
  have hbody : Page.body page = "// SM-CAPTURE-END\n// SM-CAPTURE-START" := rfl
  have hended : "// SM-CAPTURE-END\n// SM-CAPTURE-START" ++ "\n" = "// SM-CAPTURE-END\n// SM-CAPTURE-START\n" := rfl
  have hstatement : text =
      "mw.loader.load('//a.org/w/index.php?title=X.js&action=raw&ctype=text/javascript'); // label-backlink [[Help:X]]" := rfl
  have hfacts : (∀ l ∈ page, IsLine l) ∧ Unbroken (e.linkLabel m.settings).toList ∧
      Page.isInstalled page e m.settings = .ok false ∧ m.annotated env.source e = .ok e' ∧ e'.statement m.settings = .ok text ∧
      (Entry.ofLine? text e.target).any (fun parsed => parsed.sameScript e m.settings) = true := by decide +kernel
  clear_value m e e' s text
  obtain ⟨hisLine, label, missing, annotated, statement, hsame⟩ := hfacts
  have hpage : m.pageLines s e.target = page := pageLines_eq htext (by simp [page]) hisLine
  obtain ⟨parsed, hparsed, hparsedSame⟩ := (Option.any_eq_true _ _).mp hsame
  have calm : ({} : Surroundings).Calm := fun _ _ => rfl
  have calm' : env.Calm := fun _ _ => rfl
  rw [← hpage] at missing hbody
  obtain ⟨hsucceeds, hall⟩ := install_appends_once m e e' env s text label missing annotated statement
  obtain ⟨t, ht⟩ := hsucceeds calm'
  obtain ⟨-, hpageText, -, hback⟩ := hall true t ht
  obtain ⟨hcalm, hagain, hremoved⟩ := hback parsed hparsed hparsedSame {}
  obtain ⟨⟨v, hv⟩, u, hu⟩ := hcalm calm
  obtain ⟨-, hsilent⟩ := hagain false v hv
  obtain ⟨-, hleft⟩ := hremoved true u hu
  rw [hbody, if_neg (by decide), hended] at hpageText hleft
  rw [hstatement] at hpageText
  exact ⟨m, e, env, s, t, u, htext, ht, hpageText, ⟨v, hv⟩, hsilent, hu, hleft⟩

end UserScripts.Manager
