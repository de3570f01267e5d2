import UserScripts.Proofs.Manager.Outcome
import UserScripts.Proofs.Page.Rewritten

/-!
# Normalizing twice

Whether a target that has been normalized stays as it is when it is normalized again. Without documentation links that is a matter
of each statement outside the wrappers: the second run reads what the first one has printed, and it has to print the same. Main
statements: `normalized_eq_ok` and `normalize_again_iff`.
-/

namespace UserScripts.Manager

open UserScripts.Text

variable {m : Manager} {target text : String} {env : Surroundings} {s t : Session} {b : Bool}

/-! ## What normalizing comes to -/

/-- Without documentation links an entry is not annotated. -/
theorem annotated_of_plain (plain : m.linksDocs = false) (source : Sources) (e : Entry) : m.annotated source e = .ok e := by
  rw [annotated, annotate, plain]
  rfl

/-- The statements of entries come about exactly if each of them does, in order. -/
theorem statementsOf_eq_ok {entries : List Entry} {statements : List String} : m.statementsOf entries = .ok statements ↔
    List.Forall₂ (fun e statement => e.statement m.settings = .ok statement) entries statements := by
  refine ⟨statementsOf_ok, fun h => ?_⟩
  induction h with
  | nil => rfl
  | cons hstatement _ ih =>
    rw [statementsOf] at ih ⊢
    rw [List.mapM_cons, hstatement, ih]
    rfl

/-- Without documentation links normalizing rewrites the lines of the page. -/
theorem normalized_eq_ok (plain : m.linksDocs = false) (source : Sources) {text' : String} :
    m.normalized source target text = .ok text' ↔
      ∃ new, Page.Rewritten (Wrapper.covers (lines text)) target m.settings 0 (lines text) new ∧ text' = unlines new := by
  have hannotated : (((Page.plainEntries (lines text) target).map fun p => m.annotated source p.2).mapM id) =
      .ok ((Page.plainEntries (lines text) target).map Prod.snd) := by
    simp only [annotated_of_plain plain, List.mapM_map]
    exact List.mapM_pure
  have hverdict : m.normalized source target text = (m.statementsOf ((Page.plainEntries (lines text) target).map Prod.snd)).map
      fun statements => unlines (Page.setLines (lines text) (((Page.plainEntries (lines text) target).map Prod.fst).zip statements)) := by
    rw [normalized, hannotated]
    simp only [bind, Except.bind, pure, Except.pure]
    cases m.statementsOf ((Page.plainEntries (lines text) target).map Prod.snd) <;> rfl
  rw [hverdict]
  constructor
  · intro h
    cases hstatements : m.statementsOf ((Page.plainEntries (lines text) target).map Prod.snd) with
    | error failure => rw [hstatements] at h; cases h
    | ok statements =>
      rw [hstatements] at h
      have hall := List.forall₂_map_left_iff.mp (statementsOf_eq_ok.mp hstatements)
      exact ⟨_, Page.rewritten_setLines hall, (Except.ok.inj h).symm⟩
  · rintro ⟨new, hnew, rfl⟩
    obtain ⟨statements, hall⟩ := hnew.statements
    rw [← Page.plainEntries_eq] at hall
    rw [statementsOf_eq_ok.mpr (List.forall₂_map_left_iff.mpr hall), hnew.unique (Page.rewritten_setLines hall)]
    rfl

/-- After a run of normalizing the lines of the page are a rewriting of the old ones. -/
theorem rewritten_of_normalize (plain : m.linksDocs = false)
    (label : ∀ e : Entry, e.target = target → Unbroken (e.linkLabel m.settings).toList)
    (h : s.run env (m.normalize target) = (.ok b, t)) :
    Page.Rewritten (Wrapper.covers (m.pageLines s target)) target m.settings 0 (m.pageLines s target) (m.pageLines t target) := by
  have houtcome := outcome_normalize m target env s
  rw [h] at houtcome
  obtain ⟨new, hnew, htext⟩ := (normalized_eq_ok plain env.source).mp houtcome.of_ok
  have hne : new ≠ [] := by
    intro hempty
    have hlength := hnew.length_eq
    rw [hempty, eq_comm, List.length_nil, List.length_eq_zero_iff] at hlength
    exact lines_ne_nil _ hlength
  rw [pageLines_eq htext hne (hnew.isLine label fun l hl => isLine_of_mem_lines hl)]
  exact hnew

/-- While no call is refused, normalizing changes nothing exactly if the lines of the page are a rewriting of themselves. -/
theorem normalize_eq_false_iff (plain : m.linksDocs = false)
    (label : ∀ e : Entry, e.target = target → Unbroken (e.linkLabel m.settings).toList) (calm : env.Calm) :
    (s.run env (m.normalize target)).1 = .ok false ↔
      Page.Rewritten (Wrapper.covers (m.pageLines s target)) target m.settings 0 (m.pageLines s target) (m.pageLines s target) := by
  constructor
  · intro h
    have hrun : s.run env (m.normalize target) = (.ok false, (s.run env (m.normalize target)).2) := Prod.ext h rfl
    have hnew := rewritten_of_normalize plain label hrun
    have hsame : m.pageText (s.run env (m.normalize target)).2 target = m.pageText s target := by
      have houtcome := outcome_normalize m target env s
      rw [(houtcome.of_calm calm)] at h
      rw [hrun] at houtcome
      rw [houtcome.of_ok, Except.map] at h
      exact (by simpa using Except.ok.inj h : m.pageText s target = _).symm
    have hlines : m.pageLines (s.run env (m.normalize target)).2 target = m.pageLines s target := by rw [pageLines, hsame, pageLines]
    rwa [hlines] at hnew
  · intro h
    have hverdict : m.normalized env.source target (m.pageText s target) = .ok (m.pageText s target) :=
      (normalized_eq_ok plain env.source).mpr ⟨_, h, (unlines_pageLines m s target).symm⟩
    rw [(outcome_normalize m target env s).of_calm calm, hverdict, Except.map, decide_eq_false (not_not_intro rfl)]

/-- A rewriting that changes the page is what normalizing makes of it while no call is refused. -/
theorem normalize_of_rewritten {new : List String} (plain : m.linksDocs = false) (calm : env.Calm)
    (h : Page.Rewritten (Wrapper.covers (m.pageLines s target)) target m.settings 0 (m.pageLines s target) new)
    (hdiff : m.pageText s target ≠ unlines new) :
    s.run env (m.normalize target) = (.ok true, (s.run env (m.normalize target)).2) ∧
      m.pageText (s.run env (m.normalize target)).2 target = unlines new := by
  have houtcome := outcome_normalize m target env s
  rw [(normalized_eq_ok plain env.source).mpr ⟨new, h, rfl⟩] at houtcome
  obtain ⟨htrue, hpage⟩ := houtcome.changed_of_calm calm hdiff
  exact ⟨Prod.ext htrue rfl, hpage⟩

/-! ## Normalizing again -/

/-- After a run of normalizing without documentation links, a second run without refused calls says that it has changed nothing and
submits no edit exactly if every statement outside the wrappers stays as it is. For a page on a plain wiki that is so if no quote
of its URL closes the literal, its title stands in the URL as it is and its link is that of the page on the named wiki; for a URL,
if no quote of it closes the literal and there are no spaces around it. -/
theorem normalize_again_iff (m : Manager) (target : String) (plain : m.linksDocs = false)
    (label : ∀ e : Entry, e.target = target → Unbroken (e.linkLabel m.settings).toList) (env : Surroundings) (s t : Session) (b : Bool)
    (h : s.run env (m.normalize target) = (.ok b, t)) :
    ((∀ env' : Surroundings, env'.Calm → (t.run env' (m.normalize target)).1 = .ok false ∧
        t.submissions env' (m.normalize target) = []) ↔
      ∀ p ∈ Page.plainEntries (m.pageLines s target) target, p.2.Settled m.settings) ∧
    ∀ p ∈ Page.plainEntries (m.pageLines s target) target,
      (∀ wiki, (onWiki : p.2.OnPlainWiki m.settings wiki) → Wiki.normalizeHost (wiki ++ ".org") = wiki ++ ".org" →
        '\n' ∉ p.2.displayName.toList → servedMediaWiki p.2.displayName.toList = p.2.displayName.toList →
        (p.2.Settled m.settings ↔
          ¬ Statement.ClosesEarly (p.2.loaderUrl m.settings.serverName).toList ∧ Entry.KeepsTitle p.2.displayName ∧
          (Entry.ofPage p.2.displayName (Entry.displayName_ne_empty onWiki.page) (some wiki) p.2.target p.2.disabled).backlink m.settings =
            p.2.backlink m.settings)) ∧
      ∀ url, p.2.source = .address url → servedMediaWiki url.toList = url.toList →
        (p.2.Settled m.settings ↔ ¬ Statement.ClosesEarly url.toList ∧ Statement.strip url.toList = url.toList) := by
  have hnew := rewritten_of_normalize plain label h
  refine ⟨?_, fun p hp => ?_⟩
  · rw [Page.plainEntries_eq, ← hnew.again]
    have hblocks : Wrapper.covers (m.pageLines t target) = Wrapper.covers (m.pageLines s target) := by
      funext i
      rw [Wrapper.covers, Wrapper.covers, hnew.blocks]
    have hfalse : ∀ {env' : Surroundings}, env'.Calm → ((t.run env' (m.normalize target)).1 = .ok false ↔
        Page.Rewritten (Wrapper.covers (m.pageLines s target)) target m.settings 0 (m.pageLines t target) (m.pageLines t target)) := by
      intro env' calm
      rw [normalize_eq_false_iff plain label calm, hblocks]
    refine ⟨fun hagain => ?_, fun hsame env' calm => ?_⟩
    · have calm : ({} : Surroundings).Calm := fun _ _ => rfl
      exact (hfalse calm).mp (hagain {} calm).1
    · have hunchanged := (hfalse calm).mpr hsame
      exact ⟨hunchanged, honest_normalize.silent hunchanged⟩
  · rw [Page.plainEntries_eq] at hp
    obtain ⟨line, text, hline, htext⟩ := hnew.exists_statement hp
    refine ⟨fun wiki onWiki hfixed hbreak hsite => ?_, fun url hurl hsite => ?_⟩
    · exact Entry.settled_page_iff onWiki hfixed hbreak hsite htext
    · exact Entry.settled_address_iff hurl ((Entry.Built.line hline).named? hurl) hsite htext

/-- A URL between double quotes is written between single quotes, once. -/
theorem normalize_again_iff_quoted :
    ∃ (m : Manager) (s t : Session), m.linksDocs = false ∧
      (∀ e : Entry, e.target = "common" → Unbroken (e.linkLabel m.settings).toList) ∧
      m.pageLines s "common" = ["f();", "mw.loader.load( \"X.js\" )"] ∧ s.run {} (m.normalize "common") = (.ok true, t) ∧
      (t.run {} (m.normalize "common")).1 = .ok false ∧ t.submissions {} (m.normalize "common") = [] := by
  let m : Manager := { settings := { serverName := "a.org", userName := "U" } }
  let page := ["f();", "mw.loader.load( \"X.js\" )"]
  let new := ["f();", "mw.loader.load('X.js');"]
  let e := Entry.ofUrl "X.js" (by decide) "common" false
  let s : Session := { home := { wiki := { pages := [("User:U/common.js", unlines page)] } } }
  have label : ∀ e : Entry, e.target = "common" → Unbroken (e.linkLabel m.settings).toList := by
    intro e he
    rw [Entry.linkLabel, he]
    decide +kernel
  have htext : m.pageText s "common" = unlines page := rfl
  have hpage : m.pageLines s "common" = page := pageLines_eq htext (by simp [page]) (by decide +kernel)
  have hentries : Page.plainEntries page "common" = [(1, e)] := by decide +kernel
  have hfirst : Entry.ofLine? "f();" "common" = none := by decide +kernel
  have hsecond : Entry.ofLine? "mw.loader.load( \"X.js\" )" "common" = some e := by decide +kernel
  have hcovers : Wrapper.covers page 1 = false := by decide +kernel
  have hstatement : e.statement m.settings = .ok "mw.loader.load('X.js');" := by decide +kernel
  have hchanged : unlines page ≠ unlines new := by decide +kernel
  have hsource : e.source = .address "X.js" := by decide +kernel
  have hsite : servedMediaWiki "X.js".toList = "X.js".toList := by decide +kernel
  have hopen : ¬ Statement.ClosesEarly "X.js".toList := by
    rw [← Statement.cutEarly?_eq_none]
    decide +kernel
  have hstrip : Statement.strip "X.js".toList = "X.js".toList := by decide +kernel
  have plain : m.linksDocs = false := rfl
  clear_value m e s
  have calm : ({} : Surroundings).Calm := fun _ _ => rfl
  have hnew : Page.Rewritten (Wrapper.covers (m.pageLines s "common")) "common" m.settings 0 (m.pageLines s "common") new := by
    rw [hpage]
    exact .kept (Or.inr hfirst) (.written hcovers hsecond hstatement .nil)
  obtain ⟨hrun, -⟩ := normalize_of_rewritten plain calm hnew (by rw [htext]; exact hchanged)
  obtain ⟨hagain, hsettled⟩ := normalize_again_iff m "common" plain label {} s _ true hrun
  rw [hpage, hentries] at hagain hsettled
  have settled : e.Settled m.settings := ((hsettled _ List.mem_cons_self).2 "X.js" hsource hsite).mpr ⟨hopen, hstrip⟩
  exact ⟨m, s, _, plain, label, hpage, hrun, hagain.mpr (by simpa using settled) {} calm⟩

/-- A title with an ampersand is written as it is, and read up to the ampersand: the second run turns the page into another one. -/
theorem normalize_changes_what_it_has_written :
    ∃ (m : Manager) (s t : Session), m.linksDocs = false ∧
      (∀ e : Entry, e.target = "common" → Unbroken (e.linkLabel m.settings).toList) ∧
      m.pageLines s "common" = ["importScript('A&B');"] ∧ s.run {} (m.normalize "common") = (.ok true, t) ∧
      m.pageLines t "common" =
        ["mw.loader.load('//a.org/w/index.php?title=A&B&action=raw&ctype=text/javascript'); // label-backlink [[A&B]]"] ∧
      (t.run {} (m.normalize "common")).1 = .ok true ∧
      m.pageText (t.run {} (m.normalize "common")).2 "common" =
        "mw.loader.load('//a.org/w/index.php?title=A&action=raw&ctype=text/javascript'); // label-backlink [[A]]" := by
  let m : Manager := { settings := { serverName := "a.org", userName := "U" } }
  let first := "importScript('A&B');"
  let second := "mw.loader.load('//a.org/w/index.php?title=A&B&action=raw&ctype=text/javascript'); // label-backlink [[A&B]]"
  let third := "mw.loader.load('//a.org/w/index.php?title=A&action=raw&ctype=text/javascript'); // label-backlink [[A]]"
  let e := Entry.ofPage "A&B" (by decide) none "common" false
  let cut := Entry.ofPage "A" (by decide) (some "a") "common" false
  let s : Session := { home := { wiki := { pages := [("User:U/common.js", unlines [first])] } } }
  have label : ∀ e : Entry, e.target = "common" → Unbroken (e.linkLabel m.settings).toList := by
    intro e he
    rw [Entry.linkLabel, he]
    decide +kernel
  have htext : m.pageText s "common" = unlines [first] := rfl
  have hread : Entry.ofLine? first "common" = some e ∧ Entry.ofLine? second "common" = some cut := by decide +kernel
  have hstatements : e.statement m.settings = .ok second ∧ cut.statement m.settings = .ok third := by decide +kernel
  have hcovers : Wrapper.covers [first] 0 = false ∧ Wrapper.covers [second] 0 = false := by decide +kernel
  have hchanged : unlines [first] ≠ unlines [second] ∧ unlines [second] ≠ unlines [third] := by decide +kernel
  have hisLine : (∀ l ∈ [first], IsLine l) ∧ ∀ l ∈ [second], IsLine l := by decide +kernel
  have plain : m.linksDocs = false := rfl
  clear_value m e cut s
  have calm : ({} : Surroundings).Calm := fun _ _ => rfl
  have hpage : m.pageLines s "common" = [first] := pageLines_eq htext (by simp) hisLine.1
  have hfirst : Page.Rewritten (Wrapper.covers (m.pageLines s "common")) "common" m.settings 0 (m.pageLines s "common") [second] := by
    rw [hpage]
    exact .written hcovers.1 hread.1 hstatements.1 .nil
  obtain ⟨hrun, hafter⟩ := normalize_of_rewritten plain calm hfirst (by rw [htext]; exact hchanged.1)
  generalize (s.run {} (m.normalize "common")).2 = t at hrun hafter
  have hpage' : m.pageLines t "common" = [second] := pageLines_eq hafter (by simp) hisLine.2
  have hsecond : Page.Rewritten (Wrapper.covers (m.pageLines t "common")) "common" m.settings 0 (m.pageLines t "common") [third] := by
    rw [hpage']
    exact .written hcovers.2 hread.2 hstatements.2 .nil
  obtain ⟨hrun', hafter'⟩ := normalize_of_rewritten plain calm hsecond (by rw [hafter]; exact hchanged.2)
  exact ⟨m, s, t, plain, label, hpage, hrun, hpage', congrArg Prod.fst hrun', hafter'.trans (unlines_singleton third)⟩

end UserScripts.Manager
