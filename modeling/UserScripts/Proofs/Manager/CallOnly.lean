import UserScripts.Proofs.Manager.Normalized
import UserScripts.Proofs.Manager.Verdict
import UserScripts.Proofs.Page.Placed

/-!
# What normalizing keeps of a line

A statement is rebuilt from what it calls. What follows the call on its line and the media type that the call names are not looked
at: they go, and a style sheet is told by the ending of its page or of the path of its URL. So a line that runs something else behind
its call loses it. Every other line stays as it is. Main statement: `normalize_keeps_the_call`.
-/

namespace UserScripts

open UserScripts.Text

/-- Statements that make the same call, whatever media types they name and whatever follows them. -/
structure Statement.SameCall (a b : Statement) : Prop where
  disabled : b.disabled = a.disabled
  callee : b.callee = a.callee
  body : b.body = a.body

/-- Statements that make the same call are read as the same entry. -/
theorem Statement.SameCall.entry {a b : Statement} (h : a.SameCall b) (target : String) : b.entry target = a.entry target := by
  obtain ⟨disabled, callee, body, mediaType, rest, _⟩ := a
  obtain ⟨disabled', callee', body', mediaType', rest', _⟩ := b
  obtain ⟨rfl, rfl, rfl⟩ := h
  rfl

namespace Manager

variable {m : Manager} {target text text' : String} {source : Sources} {env : Surroundings} {s t : Session} {b : Bool}

/-- Whether a text is the statement that normalizing writes for an entry. -/
def Writes (m : Manager) (source : Sources) (e : Entry) (text : String) : Prop :=
  ∃ e', m.annotated source e = .ok e' ∧ e'.statement m.settings = .ok text

/-- There is one text at most that normalizing writes for an entry. -/
theorem Writes.unique {e : Entry} (h : m.Writes source e text) (h' : m.Writes source e text') : text = text' := by
  obtain ⟨e₁, hannotated₁, hstatement₁⟩ := h
  obtain ⟨e₂, hannotated₂, hstatement₂⟩ := h'
  obtain rfl := Except.ok.inj (hannotated₁.symm.trans hannotated₂)
  exact Except.ok.inj (hstatement₁.symm.trans hstatement₂)

/-- What is written for an entry: one load call with the slashes of a disabled entry before it and at most the link comment after
it. -/
theorem Writes.eq_call {e : Entry} (h : m.Writes source e text) :
    ∃ e' css, Annotated e e' ∧ e.isCss = .ok css ∧
      text = (if e.disabled then "//" else "") ++ ("mw.loader.load('" ++ escapeLiteral (e'.loaderUrl m.settings.serverName) ++ "'" ++
        (if css then ", 'text/css'" else "") ++ ");") ++ e'.backlink m.settings := by
  obtain ⟨e', hannotated, hstatement⟩ := h
  have hann := annotated_ok hannotated
  obtain ⟨call, hcall, rfl⟩ := Entry.statement_eq hstatement
  rw [hann.disabled]
  unfold Entry.loadCall at hcall
  cases hcss : e'.isCss with
  | error fault => rw [hcss] at hcall; nomatch hcall
  | ok css =>
    rw [hcss] at hcall
    rw [← Except.ok.inj hcall]
    exact ⟨e', css, hann, hann.isCss ▸ hcss, rfl⟩

/-- What is written for an entry is one line, unless the label of its link breaks it. -/
theorem Writes.isLine {e : Entry} (label : Unbroken (e.linkLabel m.settings).toList) (h : m.Writes source e text) : IsLine text := by
  obtain ⟨e', hannotated, hstatement⟩ := h
  exact Entry.isLine_statement label (annotated_ok hannotated).target hstatement

/-- A link stands in a comment. -/
theorem backlink_eq_comment (e : Entry) (s : Settings) : e.backlink s = "" ∨ " // ".toList <+: (e.backlink s).toList := by
  rcases e.backlink_cases s with h | ⟨title, h⟩
  · exact Or.inl h
  · rw [h]
    exact Or.inr ⟨(e.linkLabel s ++ " [[" ++ escapeComment title ++ "]]").toList, by simp⟩

/-- Normalizing puts, in the place of each statement outside the wrappers, what it writes for its entry. -/
theorem normalized_ok (h : m.normalized source target text = .ok text') :
    ∃ statements, List.Forall₂ (fun (p : Nat × Entry) statement => m.Writes source p.2 statement)
        (Page.plainEntries (lines text) target) statements ∧
      text' = unlines (Page.setLines (lines text) (((Page.plainEntries (lines text) target).map Prod.fst).zip statements)) := by
  obtain ⟨entries, hannotated, h⟩ := bind_eq_ok.mp h
  obtain ⟨statements, hstatements, h⟩ := bind_eq_ok.mp h
  have hentries : List.Forall₂ (fun (p : Nat × Entry) e' => m.annotated source p.2 = .ok e') (Page.plainEntries (lines text) target)
      entries := by
    have hmap := Routine.eq_map_ok_of_mapM hannotated
    rwa [← List.forall₂_eq_eq_eq, List.forall₂_map_left_iff, List.forall₂_map_right_iff] at hmap
  exact ⟨statements, forall₂_comp hentries (statementsOf_ok hstatements), (Except.ok.inj h).symm⟩

/-- Pages that differ in one line, where both have a statement that makes the same call, are normalized to the same page. -/
theorem normalized_set {line line' : String} {i : Nat} {a a' : Statement} {text₁ text₂ : String}
    (hline : (lines text)[i]? = some line) (outside : Wrapper.covers (lines text) i = false)
    (ha : Statement.ofLine? line.toList = some a) (ha' : Statement.ofLine? line'.toList = some a') (same : a.SameCall a')
    (hlines : lines text' = (lines text).set i line') (h₁ : m.normalized source target text = .ok text₁)
    (h₂ : m.normalized source target text' = .ok text₂) : text₂ = text₁ := by
  obtain ⟨statements₁, hall₁, rfl⟩ := normalized_ok h₁
  obtain ⟨statements₂, hall₂, rfl⟩ := normalized_ok h₂
  have he : Entry.ofLine? line target = some (a.entry target) := by rw [Entry.ofLine?, ha]; rfl
  have he' : Entry.ofLine? line' target = some (a.entry target) := by rw [Entry.ofLine?, ha', ← same.entry target]; rfl
  have hcovers := Page.covers_set hline (Page.tame_of_ofLine? he) (Page.tame_of_ofLine? he')
  rw [hlines] at hall₂ ⊢
  refine congrArg unlines (List.ext_getElem? fun j => ?_)
  cases hj : (lines text)[j]? with
  | none =>
    have hshort := List.getElem?_eq_none_iff.mp hj
    rw [List.getElem?_eq_none, List.getElem?_eq_none] <;> simpa [Page.length_setLines] using hshort
  | some l =>
    have hfirst := Page.setLines_plainEntries hall₁ hj
    by_cases hij : i = j
    · subst hij
      obtain rfl := Option.some.inj (hline.symm.trans hj)
      have hlt := (List.getElem?_eq_some_iff.mp hline).1
      have hsecond := Page.setLines_plainEntries hall₂ (List.getElem?_set_self hlt)
      obtain ⟨written₁, hwritten₁, hnew₁⟩ := hfirst.2 _ outside he
      obtain ⟨written₂, hwritten₂, hnew₂⟩ := hsecond.2 _ (hcovers ▸ outside) he'
      rw [hnew₁, hnew₂, hwritten₁.unique hwritten₂]
    · have hsecond := Page.setLines_plainEntries hall₂ ((List.getElem?_set_ne hij).trans hj)
      rw [hcovers] at hsecond
      rcases Page.line_cases (Wrapper.covers (lines text)) target j l with hkept | ⟨houtside, e, hl⟩
      · rw [hfirst.1 hkept, hsecond.1 hkept]
      · obtain ⟨written₁, hwritten₁, hnew₁⟩ := hfirst.2 _ houtside hl
        obtain ⟨written₂, hwritten₂, hnew₂⟩ := hsecond.2 _ houtside hl
        rw [hnew₁, hnew₂, hwritten₁.unique hwritten₂]

/-! ## Runs of normalizing -/

/-- A page with new lines for its statements consists of these lines and the others, unless the label of the links breaks them. -/
theorem pageLines_setLines {statements : List String}
    (label : ∀ e : Entry, e.target = target → Unbroken (e.linkLabel m.settings).toList)
    (hall : List.Forall₂ (fun (p : Nat × Entry) statement => m.Writes source p.2 statement)
      (Page.plainEntries (m.pageLines s target) target) statements)
    (htext : m.pageText t target = unlines (Page.setLines (m.pageLines s target)
      (((Page.plainEntries (m.pageLines s target) target).map Prod.fst).zip statements))) :
    m.pageLines t target = Page.setLines (m.pageLines s target)
      (((Page.plainEntries (m.pageLines s target) target).map Prod.fst).zip statements) := by
  have hlength := Page.length_setLines (m.pageLines s target)
    (((Page.plainEntries (m.pageLines s target) target).map Prod.fst).zip statements)
  refine pageLines_eq htext ?_ fun l hl => ?_
  · intro hempty
    rw [hempty, List.length_nil, eq_comm, List.length_eq_zero_iff] at hlength
    exact lines_ne_nil _ hlength
  · obtain ⟨i, hi⟩ := List.mem_iff_getElem?.mp hl
    have hlt : i < (m.pageLines s target).length := hlength ▸ (List.getElem?_eq_some_iff.mp hi).1
    have hold := List.getElem?_eq_getElem hlt
    obtain ⟨hkept, hwritten⟩ := Page.setLines_plainEntries hall hold
    rcases Page.line_cases (Wrapper.covers (m.pageLines s target)) target i (m.pageLines s target)[i] with hsame | ⟨houtside, e, he⟩
    · rw [Option.some.inj (hi.symm.trans (hkept hsame))]
      exact isLine_of_mem_lines (List.getElem_mem hlt)
    · obtain ⟨text, htext, hnew⟩ := hwritten e houtside he
      rw [Option.some.inj (hi.symm.trans hnew)]
      exact htext.isLine (label e (Page.target_of_ofLine? he))

/-- Whenever normalizing returns, the lines inside the wrappers and those without a statement are what they were. A statement outside
the wrappers has given way to one load call for its entry, with the slashes of a disabled one before it and a comment or nothing after
it. The call names the media type of style sheets exactly if the page or the path of the URL ends like one. Neither what followed the
call on its line nor the media type that the call named counts for any of this: another statement with the same call in its place, and
the run ends with the same page. What is put together has as many lines as the page before; these are the lines of the page, unless the
label of the links breaks them. -/
theorem normalize_keeps_the_call (m : Manager) (target : String) (env : Surroundings) (s t : Session) (b : Bool)
    (h : s.run env (m.normalize target) = (.ok b, t)) :
    ∃ new, m.pageText t target = unlines new ∧ new.length = (m.pageLines s target).length ∧
      ((∀ e : Entry, e.target = target → Unbroken (e.linkLabel m.settings).toList) → m.pageLines t target = new) ∧
      ∀ i line, (m.pageLines s target)[i]? = some line →
        (Wrapper.covers (m.pageLines s target) i = true ∨ Statement.ofLine? line.toList = none → new[i]? = some line) ∧
        ∀ st, Wrapper.covers (m.pageLines s target) i = false → Statement.ofLine? line.toList = some st →
          (∃ e css, Annotated (st.entry target) e ∧ (st.entry target).isCss = .ok css ∧
            new[i]? = some ((if st.disabled then "//" else "") ++ ("mw.loader.load('" ++
              escapeLiteral (e.loaderUrl m.settings.serverName) ++ "'" ++ (if css then ", 'text/css'" else "") ++ ");") ++
              e.backlink m.settings) ∧
            (e.backlink m.settings = "" ∨ " // ".toList <+: (e.backlink m.settings).toList)) ∧
          ∀ line' st', Statement.ofLine? line'.toList = some st' → st.SameCall st' →
            ∀ (env' : Surroundings) (s' t' : Session) (b' : Bool), env'.source = env.source →
              m.pageLines s' target = (m.pageLines s target).set i line' → s'.run env' (m.normalize target) = (.ok b', t') →
              m.pageText t' target = m.pageText t target := by
  have hverdict := outcome_normalize m target env s
  rw [h] at hverdict
  obtain ⟨statements, hall, htext⟩ := normalized_ok hverdict.of_ok
  refine ⟨_, htext, Page.length_setLines _ _, fun label => pageLines_setLines label hall htext, fun i line hline => ?_⟩
  obtain ⟨hkept, hwritten⟩ := Page.setLines_plainEntries hall hline
  refine ⟨fun h => hkept (h.imp_right fun hnone => ?_), fun st houtside hst => ⟨?_, ?_⟩⟩
  · rw [Entry.ofLine?, hnone, Option.map_none]
  · have hentry : Entry.ofLine? line target = some (st.entry target) := by rw [Entry.ofLine?, hst, Option.map_some]
    obtain ⟨text, htext, hnew⟩ := hwritten _ houtside hentry
    obtain ⟨e, css, hann, hcss, rfl⟩ := Writes.eq_call htext
    rw [(Page.entry_of_statement st target).2.2] at hnew
    exact ⟨e, css, hann, hcss, hnew, backlink_eq_comment e m.settings⟩
  · intro line' st' hst' same env' s' t' b' hsource hlines hrun
    have hverdict' := outcome_normalize m target env' s'
    rw [hrun, hsource] at hverdict'
    exact normalized_set hline houtside hst hst' same hlines hverdict.of_ok hverdict'.of_ok

/-- A line without a statement stays, and the line after it loads the style sheet that it has loaded. -/
theorem normalize_keeps_the_call_of_style_sheet :
    ∃ (m : Manager) (s t : Session), s.run {} (m.normalize "common") = (.ok true, t) ∧
      m.pageLines s "common" = ["f();", "mw.loader.load(\"X.css\", \"application/css\") // old"] ∧
      ∃ new, m.pageText t "common" = unlines new ∧ new.length = 2 ∧ new[0]? = some "f();" ∧
        new[1]? = some "mw.loader.load('X.css', 'text/css');" := by
  let m : Manager := { settings := { serverName := "a.org", userName := "U" } }
  let line := "mw.loader.load(\"X.css\", \"application/css\") // old"
  let sheet := Entry.ofUrl "X.css" (by decide) "common" false
  let s : Session := { home := { wiki := { pages := [("User:U/common.js", unlines ["f();", line])] } } }
  have htext : m.pageText s "common" = unlines ["f();", line] := rfl
  have hpage : m.pageLines s "common" = ["f();", line] := pageLines_eq htext (by simp) (by decide +kernel)
  have hfirst : Entry.ofLine? "f();" "common" = none := by decide +kernel
  have hsecond : Entry.ofLine? line "common" = some sheet := by decide +kernel
  have hcovers : Wrapper.covers ["f();", line] 1 = false := by decide +kernel
  have hstatement : sheet.statement m.settings = .ok "mw.loader.load('X.css', 'text/css');" := by decide +kernel
  have hsheet : sheet.isCss = .ok true ∧ sheet.disabled = false := by decide +kernel
  have hurl : sheet.loaderUrl m.settings.serverName = "X.css" ∧ sheet.backlink m.settings = "" := by decide +kernel
  have hwritten : ∀ e, Annotated sheet e → e.loaderUrl m.settings.serverName = "X.css" ∧ e.backlink m.settings = "" := by
    rintro e (rfl | ⟨title, rfl⟩) <;> exact hurl
  have hescape : escapeLiteral "X.css" = "X.css" := by decide +kernel
  have hdiff : unlines ["f();", line] ≠ unlines ["f();", "mw.loader.load('X.css', 'text/css');"] := by decide +kernel
  have plain : m.linksDocs = false := rfl
  clear_value m s sheet
  have hnew : Page.Rewritten (Wrapper.covers (m.pageLines s "common")) "common" m.settings 0 (m.pageLines s "common")
      ["f();", "mw.loader.load('X.css', 'text/css');"] := by
    rw [hpage]
    exact .kept (Or.inr hfirst) (.written hcovers hsecond hstatement .nil)
  obtain ⟨hrun, -⟩ := normalize_of_rewritten plain (fun _ _ => rfl : ({} : Surroundings).Calm) hnew (by rw [htext]; exact hdiff)
  obtain ⟨new, hnew, hlength, -, hlines⟩ := normalize_keeps_the_call m "common" {} s _ true hrun
  rw [hpage] at hlength hlines
  obtain ⟨st, hst, hentry⟩ := Option.map_eq_some_iff.mp hsecond
  refine ⟨m, s, _, hrun, hpage, new, hnew, hlength, (hlines 0 _ rfl).1 (Or.inr (Option.map_eq_none_iff.mp hfirst)), ?_⟩
  obtain ⟨e, css, hann, hcss, hcall, -⟩ := ((hlines 1 _ rfl).2 st hcovers hst).1
  rw [hentry] at hann hcss
  rw [← (Page.entry_of_statement st "common").2.2, hentry, hsheet.2, ← Except.ok.inj (hsheet.1.symm.trans hcss), (hwritten e hann).1,
    (hwritten e hann).2, hescape] at hcall
  exact hcall

/-- A second call behind a statement goes, and a style sheet whose URL does not end like one is loaded as a script afterwards. -/
theorem normalize_drops_what_is_not_the_call :
    ∃ (m : Manager) (s t : Session) (first second : Statement), s.run {} (m.normalize "common") = (.ok true, t) ∧
      m.pageLines s "common" =
        ["importScript('User:A/x.js'); f();", "mw.loader.load('https://example.org/skin', 'text/css');"] ∧
      Wrapper.blocks (m.pageLines s "common") = [] ∧
      Statement.ofLine? "importScript('User:A/x.js'); f();".toList = some first ∧ first.rest = " f();".toList ∧
      Statement.ofLine? "mw.loader.load('https://example.org/skin', 'text/css');".toList = some second ∧
      second.mediaType = some "text/css" ∧
      m.pageText t "common" = unlines
        ["mw.loader.load('//a.org/w/index.php?title=User:A/x.js&action=raw&ctype=text/javascript'); // label-backlink [[User:A/x.js]]",
          "mw.loader.load('https://example.org/skin');"] := by
  let m : Manager := { settings := { serverName := "a.org", userName := "U" } }
  let one := "importScript('User:A/x.js'); f();"
  let two := "mw.loader.load('https://example.org/skin', 'text/css');"
  let call := "mw.loader.load('//a.org/w/index.php?title=User:A/x.js&action=raw&ctype=text/javascript'); // label-backlink [[User:A/x.js]]"
  let skin := "mw.loader.load('https://example.org/skin');"
  let e₁ := Entry.ofPage "User:A/x.js" (by decide) none "common" false
  let e₂ := Entry.ofUrl "https://example.org/skin" (by decide) "common" false
  let s : Session := { home := { wiki := { pages := [("User:U/common.js", unlines [one, two])] } } }
  have htext : m.pageText s "common" = unlines [one, two] := rfl
  have hisLine : ∀ l ∈ [one, two], IsLine l := by decide +kernel
  have hblocks : Wrapper.blocks [one, two] = [] := by decide +kernel
  have hone : (Statement.ofLine? one.toList).map (fun st => (st.rest, st.entry "common")) = some (" f();".toList, e₁) := by decide +kernel
  have htwo : (Statement.ofLine? two.toList).map (fun st => (st.mediaType, st.entry "common")) = some (some "text/css", e₂) := by
    decide +kernel
  have hcall : e₁.statement m.settings = .ok call := by decide +kernel
  have hskin : e₂.statement m.settings = .ok skin := by decide +kernel
  have hdiff : unlines [one, two] ≠ unlines [call, skin] := by decide +kernel
  have plain : m.linksDocs = false := rfl
  clear_value m s e₁ e₂
  obtain ⟨first, hfirst, hrest⟩ := Option.map_eq_some_iff.mp hone
  obtain ⟨second, hsecond, hmedia⟩ := Option.map_eq_some_iff.mp htwo
  rw [Prod.mk.injEq] at hrest hmedia
  have hpage : m.pageLines s "common" = [one, two] := pageLines_eq htext (by simp) hisLine
  have hcovers : ∀ i, Wrapper.covers [one, two] i = false := fun i => by rw [Wrapper.covers, hblocks]; rfl
  have hnew : Page.Rewritten (Wrapper.covers (m.pageLines s "common")) "common" m.settings 0 (m.pageLines s "common") [call, skin] := by
    rw [hpage]
    exact .written (hcovers 0) (by rw [Entry.ofLine?, hfirst, Option.map_some, hrest.2]) hcall
      (.written (hcovers 1) (by rw [Entry.ofLine?, hsecond, Option.map_some, hmedia.2]) hskin .nil)
  obtain ⟨hrun, hafter⟩ := normalize_of_rewritten plain (fun _ _ => rfl : ({} : Surroundings).Calm) hnew (by rw [htext]; exact hdiff)
  exact ⟨m, s, _, first, second, hrun, hpage, by rw [hpage, hblocks], hfirst, hrest.1, hsecond, hmedia.1, hafter⟩

end Manager

end UserScripts
