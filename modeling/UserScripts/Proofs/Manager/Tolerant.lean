import UserScripts.Proofs.Manager.Cached
import UserScripts.Proofs.Manager.Switched

/-!
# Whatever stands on a page

No page can keep a script from being looked for. What is read from a line meets the rules for entries, since the literal of a
statement is never empty and a URL whose page comes out empty is kept as it is, and of all URLs only that of the script itself has
to be taken apart. So removing a script or switching it off or on fails only if it is not there or if a call to a wiki is refused.
Main statements: `Entry.readLine_eq`, `Manager.reliable_listEntries` and `Manager.no_page_breaks_reading`.
-/

namespace UserScripts

open UserScripts.Text

/-! ## Entries from their parts -/

namespace Entry

/-- The entry for a URL from the parts that are read from it, of which nothing is known before they are checked. -/
def ofAddressParts (url target : String) (disabled : Bool) : Except Rule Entry :=
  match Address.page? url with
  | some (wiki, page) =>
    if page = "" then ofParts none none (some url) target disabled none
    else ofParts (some page) (some wiki) none target disabled none
  | none => ofParts none none (some url) target disabled none

/-- The entry for a statement from its parts. -/
def ofStatementParts (statement : Statement) (target : String) : Except Rule Entry :=
  match statement.callee with
  | .importScript => ofParts (some statement.argument) none none target statement.disabled none
  | .load => ofAddressParts statement.argument target statement.disabled

/-- The entry that a line declares, if it is a statement, from the parts that are read from it. -/
def readLine (line target : String) : Except Rule (Option Entry) :=
  match Statement.ofLine? line.toList with
  | some statement => (ofStatementParts statement target).map some
  | none => .ok none

/-- The parts of a page with a title pass the check, and they give the entry of that page. -/
theorem ofParts_page {page : String} (nonempty : page ≠ "") (wiki : Option String) (target : String) (disabled : Bool) :
    ofParts (some page) wiki none target disabled none = .ok (ofPage page nonempty wiki target disabled) := by
  rw [ofParts, dif_neg (by simp [given_some nonempty, given_none]), dif_pos (by simp [given_some nonempty])]
  rfl

/-- The parts of a URL that is not empty pass the check, and they give the entry of that URL. -/
theorem ofParts_url {url : String} (nonempty : url ≠ "") (target : String) (disabled : Bool) :
    ofParts none none (some url) target disabled none = .ok (ofUrl url nonempty target disabled) := by
  rw [ofParts, dif_neg (by simp [given_some nonempty, given_none]), dif_pos (by simp [given_none])]
  rfl

/-- The parts of a URL break no rule unless the URL is empty. -/
theorem ofAddressParts_eq (url target : String) (disabled : Bool) :
    ofAddressParts url target disabled = ofAddress? url target disabled := by
  by_cases hurl : url = ""
  · subst hurl
    rfl
  · rw [ofAddress?, dif_neg hurl, ofAddressParts, ofAddress]
    cases Address.page? url with
    | none => exact ofParts_url hurl target disabled
    | some parts =>
      obtain ⟨wiki, page⟩ := parts
      by_cases hpage : page = ""
      · simp only [hpage, if_true, dif_pos]
        exact ofParts_url hurl target disabled
      · simp only [hpage, if_false, dif_neg, not_false_eq_true]
        exact ofParts_page hpage (some wiki) target disabled

/-- The parts of a statement break no rule. -/
theorem ofStatementParts_eq (statement : Statement) (target : String) :
    ofStatementParts statement target = .ok (statement.entry target) := by
  rw [ofStatementParts, Statement.entry]
  cases statement.callee with
  | importScript => exact ofParts_page statement.argument_ne_empty none target statement.disabled
  | load =>
    simp only [ofAddressParts_eq]
    rw [ofAddress?, dif_neg statement.argument_ne_empty]

/-- No line breaks a rule for entries. -/
theorem readLine_eq (line target : String) : readLine line target = .ok (ofLine? line target) := by
  rw [readLine, ofLine?]
  cases Statement.ofLine? line.toList with
  | none => rfl
  | some statement =>
    simp only [ofStatementParts_eq]
    rfl

/-- No page has a line that breaks a rule for entries. -/
theorem mapM_readLine (page : List String) (target : String) :
    page.mapM (readLine · target) = .ok (page.map (ofLine? · target)) := by
  simp only [readLine_eq]
  exact List.mapM_pure

end Entry

/-! ## Routines that only a wiki can stop -/

/-- An outcome that is a value unless a call is refused. -/
def Surroundings.Answers {α : Type} (env : Surroundings) (outcome : Except Failure α) : Prop :=
  env.Refuses outcome ∨ ∃ a, outcome = .ok a

/-- A routine that comes to a value whatever the state of the session, unless a call is refused. -/
def Routine.Reliable {α : Type} (r : Routine α) : Prop :=
  ∀ (env : Surroundings) (s : Session), env.Answers (s.run env r).1

namespace Routine

variable {α β : Type} {r : Routine α} {f : α → Routine β}

/-- Two parts in sequence come to a value if each of them does. -/
theorem Reliable.bind (hr : Reliable r) (hf : ∀ a, Reliable (f a)) : Reliable (r >>= f) := by
  intro env s
  rcases hr env s with ⟨n, call, message, refused, hout⟩ | ⟨a, hout⟩
  · rw [Session.run_bind_of_error hout]
    exact Or.inl ⟨n, call, message, refused, rfl⟩
  · rw [Session.run_bind_of_ok hout]
    exact hf a env _

/-- A value at hand is one. -/
theorem Reliable.pure (a : α) : Reliable (Pure.pure a : Routine α) :=
  fun _ _ => Or.inr ⟨a, rfl⟩

/-- A query is answered. -/
theorem Reliable.query (q : Query) : Reliable (Routine.query q) :=
  fun _ _ => Or.inr ⟨_, rfl⟩

/-- Writing notes comes to a value. -/
theorem Reliable.notes (ns : List Note) : Reliable (Routine.notes ns) :=
  fun env s => Or.inr ⟨(), Manager.run_notes_fst env s ns⟩

end Routine

namespace Manager

open Routine

variable {m : Manager} {e : Entry} {env : Surroundings} {s : Session} {target : String} {verdict : Except Failure String}

/-- Fetching a target comes to a value unless a call is refused. -/
theorem reliable_fetch (m : Manager) (target : String) : Reliable (m.fetch target) := by
  intro env s
  rw [fetch, Session.run_bind, Session.run_query]
  simp only [Session.answer]
  rcases read_cases env s (m.siteOf target) (m.settings.targetTitle target) with ⟨n, call, message, refused, hread⟩ | hread
  · rw [hread]
    exact Or.inl ⟨n, call, message, refused, rfl⟩
  · rw [hread]
    exact Or.inr ⟨_, rfl⟩

/-- Getting the text of a target comes to a value unless a call is refused. -/
theorem reliable_getText (m : Manager) (target : String) (refresh : Bool) : Reliable (m.getText target refresh) := by
  refine (Reliable.query (.recall target)).bind fun known => ?_
  have hrecall : Reliable (Routine.query (.recall target) >>= fun text => (pure (text.getD "") : Routine String)) :=
    (Reliable.query (.recall target)).bind fun text => .pure _
  split
  · exact (reliable_fetch m target).bind fun _ => hrecall
  · exact hrecall

/-- The statements of a target are found unless the page cannot be fetched. -/
theorem reliable_listEntries (m : Manager) (target : String) (refresh : Bool) : Reliable (m.listEntries target refresh) :=
  (reliable_getText m target refresh).bind fun _ => (Reliable.notes _).bind fun _ => .pure _

/-- The items of a target are found unless the page cannot be fetched. -/
theorem reliable_listCaptured (m : Manager) (target : String) (refresh : Bool) : Reliable (m.listCaptured target refresh) :=
  (reliable_getText m target refresh).bind fun _ => (Reliable.notes _).bind fun _ => .pure _

/-- An operation of which a verdict says what should come of it answers, unless the verdict is a failure. -/
theorem Outcome.answers_or_failed {run : Except Failure Bool × Session} (h : Outcome m target env s verdict run) :
    env.Answers run.1 ∨ ∃ failure, verdict = .error failure ∧ run.1 = .error failure := by
  cases h with
  | refused refused => exact Or.inl (Or.inl ⟨_, _, _, refused, rfl⟩)
  | failed failed => exact Or.inr ⟨_, failed, rfl⟩
  | done _ _ => exact Or.inl (Or.inr ⟨_, rfl⟩)

/-- No page can keep a script whose call can be written from being looked for. Every line is read without breaking a rule for
entries, the wrappers are decoded and searched, and removing the script or switching it off or on fails only if it is not there or
if a call to a wiki is refused. -/
theorem no_page_breaks_reading (m : Manager) (e : Entry) {call : String} (defined : e.loadCall m.settings = .ok call) :
    (∀ (page : List String) (target : String), page.mapM (Entry.readLine · target) = .ok (page.map (Entry.ofLine? · target))) ∧
    (∀ page, (∃ found, Page.isInstalled page e m.settings = .ok found) ∧
      ∃ parts, Page.splitItems e m.settings (Wrapper.decode page) = .ok parts) ∧
    ∀ (env : Surroundings) (s : Session),
      (∀ target refresh, env.Answers (s.run env (m.listEntries target refresh)).1 ∧
        env.Answers (s.run env (m.listCaptured target refresh)).1) ∧
      (env.Answers (s.run env (m.uninstall e)).1 ∨
        (s.run env (m.uninstall e)).1 = .error (.notInstalled e.displayName e.target)) ∧
      ∀ disabled, env.Answers (s.run env (m.setDisabled e disabled)).1 ∨
        (s.run env (m.setDisabled e disabled)).1 = .error (.notInstalled e.displayName e.target) := by
  have hcomparable : ∀ page, Page.Comparable page e m.settings := fun page => .of_loadCall defined
  refine ⟨Entry.mapM_readLine, fun page => ⟨⟨_, Page.isInstalled_eq (hcomparable page)⟩, _, Page.splitItems_eq (hcomparable page).loads⟩,
    fun env s => ⟨fun target refresh => ⟨reliable_listEntries m target refresh env s, reliable_listCaptured m target refresh env s⟩, ?_,
      fun disabled => ?_⟩⟩
  · refine (outcome_uninstall m e env s).answers_or_failed.imp_right fun ⟨failure, hfailed, hrun⟩ => ?_
    rw [hrun, ((Page.removal_eq_error (hcomparable _)).mp (Page.uninstalled_eq_error.mp hfailed)).1]
  · refine (outcome_setDisabled m e disabled env s).answers_or_failed.imp_right fun ⟨failure, hfailed, hrun⟩ => ?_
    rw [hrun]
    unfold Page.setDisabled at hfailed
    split at hfailed
    · exact congrArg Except.error (Except.error.inj hfailed).symm
    · cases hfailed

/-- A page with a URL that has no host, a title that is nothing but an ampersand, and a wrapper with malformed items, one of which
calls that URL. -/
theorem no_page_breaks_reading_malformed :
    ∃ (m : Manager) (e bad : Entry) (call : String) (s : Session),
      m.pageLines s "common" = ["mw.loader.load('//[x');", "mw.loader.load('//a.org/w/index.php?title=&');", "// SM-CAPTURE-START",
        "// SM-CAPTURE-ITEM-START", "key: \"\\q\",", "// SM-CAPTURE-ITEM-END", "// SM-CAPTURE-ITEM-START", "key: \"k\",",
        "mw.loader.load('//[x');", "// SM-CAPTURE-ITEM-END", "// SM-CAPTURE-END"] ∧
      e.loadCall m.settings = .ok call ∧
      Entry.readLine "mw.loader.load('//[x');" "common" = .ok (some bad) ∧ bad.loadCall m.settings = .error .host ∧
      (∃ found, Page.isInstalled (m.pageLines s "common") e m.settings = .ok found) ∧
      ({} : Surroundings).Answers (s.run {} (m.listCaptured "common" false)).1 ∧
      (s.run {} (m.setDisabled e true)).1 = .error (.notInstalled "User:A/x.js" "common") := by
  let m : Manager := { settings := { serverName := "a.org", userName := "U" } }
  let e := Entry.ofPage "User:A/x.js" (by decide) none "common" false
  let bad := Entry.ofUrl "//[x" (by decide) "common" false
  let page := ["mw.loader.load('//[x');", "mw.loader.load('//a.org/w/index.php?title=&');", "// SM-CAPTURE-START",
    "// SM-CAPTURE-ITEM-START", "key: \"\\q\",", "// SM-CAPTURE-ITEM-END", "// SM-CAPTURE-ITEM-START", "key: \"k\",",
    "mw.loader.load('//[x');", "// SM-CAPTURE-ITEM-END", "// SM-CAPTURE-END"]
  let s : Session := { home := { wiki := { pages := [("User:U/common.js", unlines page)] } } }
  have hnames : e.target = "common" ∧ e.displayName = "User:A/x.js" := ⟨rfl, rfl⟩
  have htext : m.pageText s "common" = unlines page := rfl
  have hfacts : (∀ l ∈ page, IsLine l) ∧ (∃ call, e.loadCall m.settings = .ok call) ∧
      Entry.ofLine? "mw.loader.load('//[x');" "common" = some bad ∧ bad.loadCall m.settings = .error .host ∧
      Page.setDisabled page e true m.settings = .error (.notInstalled "User:A/x.js" "common") :=
    ⟨by decide +kernel, ⟨_, rfl⟩, by decide +kernel, by decide +kernel, by decide +kernel⟩
  clear_value m e bad s
  obtain ⟨hisLine, ⟨call, hcall⟩, hbad, hcss, hswitched⟩ := hfacts
  have hpage : m.pageLines s "common" = page := pageLines_eq htext (by simp [page]) hisLine
  obtain ⟨hlines, hfound, hrun⟩ := no_page_breaks_reading m e hcall
  obtain ⟨hlists, -, hswitch⟩ := hrun {} s
  refine ⟨m, e, bad, call, s, hpage, hcall, ?_, hcss, (hfound _).1, (hlists "common" false).2, ?_⟩
  · rw [Entry.readLine_eq, hbad]
  · rw [← hnames.1, ← hnames.2]
    refine (hswitch true).resolve_left ?_
    rintro (⟨n, call, message, refused, -⟩ | ⟨b, hb⟩)
    · cases refused
    · have hverdict := (outcome_setDisabled m e true {} s).of_calm fun _ _ => rfl
      rw [hb, hnames.1, hpage, hswitched] at hverdict
      cases hverdict

end Manager

end UserScripts
