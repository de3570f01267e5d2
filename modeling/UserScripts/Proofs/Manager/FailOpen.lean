import UserScripts.Proofs.Manager.Move
import UserScripts.Proofs.Manager.Normalized
import UserScripts.Proofs.Manager.Verdict

/-!
# Failing open

The source of a script is written by strangers, so looking up the documentation that it names should never fail, and no operation
should fail because of it. A lookup has one way to fail: the source can be had, its header names the documentation by a text with two
slashes, and that text is no URL. Everything else, and above all a source that cannot be had, only leaves the link out. Installing
and normalizing fail because of a lookup exactly where they come to ask for such a link. Main statement: `lookups_fail_open_iff`.
-/

namespace UserScripts

open UserScripts.Text

/-! ## References -/

/-- Two slashes are found exactly if they stand somewhere in the text. -/
theorem isSome_firstPlace_after? {mark s : List Char} : (firstPlace (after? mark) s).isSome = true ↔ mark <:+: s := by
  rw [Option.isSome_iff_exists]
  constructor
  · rintro ⟨rest, h⟩
    obtain ⟨p, t, rfl, ht⟩ := exists_of_firstPlace_eq_some h
    exact ⟨p, rest, by rw [after?_eq_some.mp ht, List.append_assoc]⟩
  · rintro ⟨p, rest, rfl⟩
    by_contra hnone
    rw [← Option.isSome_iff_exists, Option.not_isSome_iff_eq_none, List.append_assoc] at hnone
    induction p with
    | nil => rw [List.nil_append, firstPlace_of_some (after?_append mark rest)] at hnone; nomatch hnone
    | cons c p ih =>
      cases hc : after? mark (c :: (p ++ (mark ++ rest))) with
      | some r => rw [List.cons_append, firstPlace_of_some hc] at hnone; nomatch hnone
      | none =>
        rw [List.cons_append, firstPlace_cons_of_none hc] at hnone
        exact ih hnone

/-- A reference has no title exactly if it has two slashes and is no URL. -/
theorem Documentation.title?_eq_error {reference : String} {fault : Url.Malformed} :
    Documentation.title? reference = .error fault ↔ "//".toList <:+: reference.toList ∧ Url.split reference.toList = .error fault := by
  rw [Documentation.title?]
  split
  · next hslashes =>
    have hmark := isSome_firstPlace_after?.mp hslashes
    have hne : reference.isEmpty = false := by
      rw [Bool.eq_false_iff]
      intro hempty
      rw [String.isEmpty_iff.mp hempty] at hmark
      exact absurd (List.infix_nil.mp hmark) (by decide)
    rw [Wiki.linkOfUrl?, hne, hslashes, if_neg Bool.false_ne_true, if_pos rfl]
    cases Url.split reference.toList with
    | error fault' =>
      exact ⟨fun h => ⟨hmark, congrArg Except.error (Except.error.inj h)⟩, fun h => congrArg Except.error (Except.error.inj h.2)⟩
    | ok url => exact iff_of_false (fun h => by cases h) fun h => by cases h.2
  · next hslashes => exact iff_of_false (fun h => by cases h) fun h => hslashes (isSome_firstPlace_after?.mpr h.1)

namespace Manager

open Routine

variable {m : Manager} {e e' : Entry} {target text : String} {source : Sources} {env : Surroundings} {s u : Session} {failure : Failure}

/-- Whether the source of a script names its documentation by what looks like a URL and is none. -/
def Misled (m : Manager) (source : Sources) (e : Entry) : Prop :=
  ∃ host page text reference, Documentation.lookup? e m.settings = some (host, page) ∧ source host page = .ok text ∧
    Documentation.reference? (Documentation.header m.settings.docScanLimit text) = some reference ∧
    "//".toList <:+: reference.toList ∧ Url.split reference.toList = .error .host

/-- The manager that looks the documentation of scripts up. -/
def linked (m : Manager) : Manager :=
  { m with linksDocs := true }

/-- The manager that leaves the documentation of scripts alone. -/
def unlinked (m : Manager) : Manager :=
  { m with linksDocs := false }

/-! ## Lookups -/

/-- What looking the documentation of a script up comes to, which only its source decides. -/
def consulted (m : Manager) (source : Sources) (e : Entry) : Except Failure (Option String) :=
  match Documentation.lookup? e m.settings with
  | none => .ok none
  | some (host, page) =>
    match source host page with
    | .error _ => .ok none
    | .ok text =>
      match Documentation.reference? (Documentation.header m.settings.docScanLimit text) with
      | none => .ok none
      | some reference => Failure.ofUrl (Documentation.title? reference)

/-- What looking up the documentation of a script comes to depends on the sources alone. -/
theorem run_documentation_fst (m : Manager) (e : Entry) (env : Surroundings) (s : Session) :
    (s.run env (m.documentation? e)).1 = m.consulted env.source e := by
  unfold documentation? consulted
  cases Documentation.lookup? e m.settings with
  | none => rfl
  | some found =>
    obtain ⟨host, page⟩ := found
    dsimp only
    rw [Session.run_bind, Session.run_query]
    simp only [Session.answer]
    cases env.source host page with
    | error reason => rfl
    | ok text =>
      dsimp only
      cases Documentation.reference? (Documentation.header m.settings.docScanLimit text) with
      | none => rfl
      | some reference =>
        dsimp only
        rw [Session.run_bind]
        cases Documentation.title? reference <;> rfl

/-- The only way in which a lookup fails. -/
theorem consulted_eq_error : m.consulted source e = .error failure ↔ failure = .malformedUrl ∧ m.Misled source e := by
  unfold consulted Misled
  split
  · next hlookup => exact iff_of_false (fun h => by cases h) fun ⟨_, _, _, _, _, h, _⟩ => by simp [hlookup] at h
  · next host page hlookup =>
    split
    · next reason hsource =>
      refine iff_of_false (fun h => by cases h) ?_
      rintro ⟨-, host', page', text, reference, hfound, htext, -⟩
      obtain ⟨rfl, rfl⟩ := Prod.mk.inj (Option.some.inj (hlookup.symm.trans hfound))
      exact nomatch hsource.symm.trans htext
    · next text hsource =>
      split
      · next hnone =>
        refine iff_of_false (fun h => by cases h) ?_
        rintro ⟨-, host', page', text', reference, hfound, htext, href, -⟩
        obtain ⟨rfl, rfl⟩ := Prod.mk.inj (Option.some.inj (hlookup.symm.trans hfound))
        rw [Except.ok.inj (hsource.symm.trans htext)] at hnone
        exact nomatch hnone.symm.trans href
      · next reference hreference =>
        constructor
        · intro h
          cases htitle : Documentation.title? reference with
          | ok title => rw [htitle] at h; cases h
          | error fault =>
            cases fault
            obtain ⟨hslashes, hsplit⟩ := Documentation.title?_eq_error.mp htitle
            exact ⟨ofUrl_error h, host, page, text, reference, hlookup, hsource, hreference, hslashes, hsplit⟩
        · rintro ⟨rfl, host', page', text', reference', hfound, htext, href, hslashes, hsplit⟩
          obtain ⟨rfl, rfl⟩ := Prod.mk.inj (Option.some.inj (hlookup.symm.trans hfound))
          rw [← Except.ok.inj (hsource.symm.trans htext), hreference] at href
          rw [Option.some.inj href, Documentation.title?_eq_error.mpr ⟨hslashes, hsplit⟩]
          rfl

/-- Annotating fails exactly where it comes to a lookup that fails. -/
theorem annotated_linked_eq_error :
    m.linked.annotated source e = .error failure ↔ failure = .malformedUrl ∧ given e.docLink = none ∧ m.Misled source e := by
  rw [annotated, annotate]
  cases hlink : given e.docLink with
  | some title => exact iff_of_false (fun h => by cases h) fun h => by cases h.2.1
  | none =>
    rw [if_neg (by simp [linked])]
    have hdoc : (({} : Session).run { source } (m.linked.documentation? e)).1 = m.consulted source e :=
      run_documentation_fst m.linked e { source } {}
    cases hc : m.consulted source e with
    | error failure' =>
      have hmisled := consulted_eq_error.mp hc
      rw [Session.run_bind_of_error (hdoc.trans hc)]
      refine ⟨fun h => ?_, fun h => ?_⟩
      · exact ⟨(Except.error.inj h).symm.trans hmisled.1, rfl, hmisled.2⟩
      · rw [h.1, hmisled.1]
    | ok title =>
      rw [Session.run_bind_of_ok (hdoc.trans hc)]
      refine iff_of_false (fun h => ?_) fun h => ?_
      · cases hg : given title <;> rw [hg] at h <;> cases h
      · cases hc.symm.trans (consulted_eq_error.mpr ⟨rfl, h.2.2⟩)

/-! ## What is made of the text of a page -/

/-- A lookup finds the script under its page. -/
theorem Misled.isCss (h : m.Misled source e) : ∃ css, e.isCss = .ok css := by
  obtain ⟨host, page, text, reference, hlookup, -⟩ := h
  unfold Documentation.lookup? at hlookup
  unfold Entry.isCss
  cases hsource : e.source with
  | own page => exact ⟨_, rfl⟩
  | «foreign» wiki page => exact ⟨_, rfl⟩
  | address url => rw [hsource] at hlookup; cases hlookup

/-- Whether an entry can be written depends on what it loads only. -/
theorem exists_statement_iff (e : Entry) (settings : Settings) :
    (∃ statement, e.statement settings = .ok statement) ↔ ∃ css, e.isCss = .ok css := by
  constructor
  · rintro ⟨statement, h⟩
    obtain ⟨call, hcall, -⟩ := Entry.statement_eq h
    obtain ⟨css, hcss, -⟩ := Entry.loadCall_eq hcall
    exact ⟨css, hcss⟩
  · rintro ⟨css, h⟩
    unfold Entry.statement Entry.loadCall
    rw [h]
    exact ⟨_, rfl⟩

/-- A script that the page does not load is added to it with its documentation. -/
theorem installed_of_missing (missing : Page.isInstalled (lines text) e m.settings = .ok false)
    (hannotated : m.annotated source e = .ok e') :
    m.installed source e text = (Failure.ofUrl (e'.statement m.settings)).map (Page.withStatement (lines text)) := by
  unfold installed
  rw [missing, hannotated]
  change (Failure.ofUrl (e'.statement m.settings) >>= fun statement => pure (Page.withStatement (lines text) statement)) = _
  cases e'.statement m.settings <;> rfl

/-- Installing makes a text unless a URL keeps it from that: one on the page, that of the script, or one that a lookup asks for. -/
theorem exists_installed_iff : (∃ text', m.installed source e text = .ok text') ↔
    Page.isInstalled (lines text) e m.settings = .ok true ∨
      Page.isInstalled (lines text) e m.settings = .ok false ∧ (∃ css, e.isCss = .ok css) ∧ ∃ e', m.annotated source e = .ok e' := by
  rw [installed, exists_bind_ok_iff]
  cases Page.isInstalled (lines text) e m.settings with
  | error fault =>
    refine iff_of_false ?_ fun h => by rcases h with h | ⟨h, -⟩ <;> cases h
    rintro ⟨_, h, -⟩
    cases h
  | ok found =>
    cases found with
    | true => exact iff_of_true ⟨true, rfl, text, rfl⟩ (Or.inl rfl)
    | false =>
      constructor
      · rintro ⟨_, hfalse, h⟩
        rw [← Except.ok.inj hfalse, if_neg Bool.false_ne_true] at h
        obtain ⟨e', hannotated, h⟩ := exists_bind_ok_iff.mp h
        obtain ⟨statement, hstatement, -⟩ := exists_bind_ok_iff.mp h
        have hcss := (exists_statement_iff e' m.settings).mp ⟨statement, ofUrl_ok hstatement⟩
        rw [(annotated_ok hannotated).isCss] at hcss
        exact Or.inr ⟨rfl, hcss, e', hannotated⟩
      · rintro (h | ⟨-, hcss, e', hannotated⟩)
        · cases h
        · rw [← (annotated_ok hannotated).isCss, ← exists_statement_iff e' m.settings] at hcss
          obtain ⟨statement, hstatement⟩ := hcss
          refine ⟨false, rfl, ?_⟩
          rw [if_neg Bool.false_ne_true]
          exact exists_bind_ok_iff.mpr ⟨e', hannotated, exists_bind_ok_iff.mpr ⟨statement, by rw [hstatement]; rfl, _, rfl⟩⟩

/-- Installing makes another text of the page unless the page loads the script. -/
theorem installed_ne_of_missing {text' : String} (missing : Page.isInstalled (lines text) e m.settings = .ok false)
    (h : m.installed source e text = .ok text') : text ≠ text' := by
  have hannotated := (exists_installed_iff.mp ⟨text', h⟩).resolve_left (by simp [missing])
  obtain ⟨-, -, e', hannotated⟩ := hannotated
  rw [installed_of_missing missing hannotated] at h
  cases hstatement : e'.statement m.settings with
  | error fault => rw [hstatement] at h; cases h
  | ok statement =>
    rw [hstatement] at h
    have hdiff := Page.apply_install_ne (Entry.isBlankLine_statement hstatement) (lines text)
    rw [Page.install, Page.apply_extend, unlines_lines] at hdiff
    exact fun hsame => hdiff ((Except.ok.inj h).trans hsame.symm)

/-- Values come of a list of outcomes unless one of them is an error. -/
theorem exists_mapM_ok_iff {α β : Type} {f : α → Except Failure β} {l : List α} :
    (∃ vs, l.mapM f = .ok vs) ↔ ∀ a ∈ l, ∃ v, f a = .ok v := by
  induction l with
  | nil => exact iff_of_true ⟨[], rfl⟩ (by simp)
  | cons a l ih =>
    rw [List.forall_mem_cons, ← ih, List.mapM_cons]
    cases f a with
    | error failure => exact iff_of_false (fun ⟨_, h⟩ => by cases h) fun ⟨⟨_, h⟩, _⟩ => by cases h
    | ok v =>
      cases l.mapM f with
      | error failure => exact iff_of_false (fun ⟨_, h⟩ => by cases h) fun ⟨_, _, h⟩ => by cases h
      | ok vs => exact iff_of_true ⟨v :: vs, rfl⟩ ⟨⟨v, rfl⟩, vs, rfl⟩

/-- A list on which a function fails has a member on which it fails so. -/
theorem exists_of_mapM_error {α β : Type} {f : α → Except Failure β} {l : List α} (h : l.mapM f = .error failure) :
    ∃ a ∈ l, f a = .error failure := by
  induction l with
  | nil => cases h
  | cons a l ih =>
    rw [List.mapM_cons] at h
    obtain h | ⟨v, -, h⟩ := bind_error h
    · exact ⟨a, List.mem_cons_self, h⟩
    · obtain h | ⟨vs, -, h⟩ := bind_error h
      · obtain ⟨b, hb, h⟩ := ih h
        exact ⟨b, List.mem_cons_of_mem a hb, h⟩
      · cases h

/-- Whether a target can be normalized depends on nothing but URLs. -/
theorem normalized_error (h : m.normalized source target text = .error failure) : failure = .malformedUrl := by
  obtain h | ⟨entries, -, h⟩ := bind_error h
  · obtain ⟨outcome, hmem, houtcome⟩ := exists_of_mapM_error h
    obtain ⟨p, -, hp⟩ := List.mem_map.mp hmem
    exact annotated_error (hp.trans houtcome)
  · obtain h | ⟨statements, -, h⟩ := bind_error h
    · obtain ⟨e', -, h⟩ := exists_of_mapM_error h
      exact ofUrl_error h
    · cases h

/-- Entries can be written as statements exactly if it can be told of each whether it is a style sheet. -/
theorem exists_statementsOf_iff {entries : List Entry} :
    (∃ statements, m.statementsOf entries = .ok statements) ↔ ∀ e ∈ entries, ∃ css, e.isCss = .ok css := by
  rw [statementsOf, exists_mapM_ok_iff]
  refine forall₂_congr fun e _ => ?_
  rw [← exists_statement_iff e m.settings]
  cases e.statement m.settings with
  | error fault =>
    constructor
    · rintro ⟨_, h⟩
      cases h
    · rintro ⟨_, h⟩
      cases h
  | ok statement => exact iff_of_true ⟨statement, rfl⟩ ⟨statement, rfl⟩

/-- Normalizing makes a text unless a URL keeps it from that: that of a statement, or one that a lookup asks for. -/
theorem exists_normalized_iff : (∃ text', m.normalized source target text = .ok text') ↔
    ∀ p ∈ Page.plainEntries (lines text) target, (∃ css, p.2.isCss = .ok css) ∧ ∃ e', m.annotated source p.2 = .ok e' := by
  rw [normalized, exists_bind_ok_iff]
  generalize Page.plainEntries (lines text) target = parsed
  constructor
  · rintro ⟨entries, hall, h⟩ p hp
    obtain ⟨statements, hstatements, -⟩ := exists_bind_ok_iff.mp h
    have hmem : m.annotated source p.2 ∈ entries.map Except.ok := by
      rw [← eq_map_ok_of_mapM hall]
      exact List.mem_map_of_mem hp
    obtain ⟨e', he', hannotated⟩ := List.mem_map.mp hmem
    have hcss := exists_statementsOf_iff.mp ⟨statements, hstatements⟩ e' he'
    rw [(annotated_ok hannotated.symm).isCss] at hcss
    exact ⟨hcss, e', hannotated.symm⟩
  · intro h
    have hoks : ∀ outcome ∈ parsed.map fun p => m.annotated source p.2, ∃ e', id outcome = .ok e' :=
      List.forall_mem_map.mpr fun p hp => (h p hp).2
    obtain ⟨entries, hall⟩ := exists_mapM_ok_iff.mpr hoks
    refine ⟨entries, hall, exists_bind_ok_iff.mpr ?_⟩
    obtain ⟨statements, hstatements⟩ := exists_statementsOf_iff.mpr fun e' he' => by
      have hmem : Except.ok e' ∈ parsed.map fun p => m.annotated source p.2 := by
        rw [eq_map_ok_of_mapM hall]
        exact List.mem_map_of_mem he'
      obtain ⟨p, hp, hannotated⟩ := List.mem_map.mp hmem
      rw [(annotated_ok hannotated).isCss]
      exact (h p hp).1
    exact ⟨statements, hstatements, _, rfl⟩

/-! ## Runs with and without lookups -/

/-- An entry can be annotated unless a lookup that it asks for fails. -/
theorem exists_annotated_linked_iff : (∃ e', m.linked.annotated source e = .ok e') ↔ ¬(given e.docLink = none ∧ m.Misled source e) := by
  cases h : m.linked.annotated source e with
  | error failure => exact iff_of_false (fun ⟨_, h⟩ => by cases h) (not_not_intro (annotated_linked_eq_error.mp h).2)
  | ok e' =>
    refine iff_of_true ⟨e', rfl⟩ fun hlook => ?_
    exact nomatch h.symm.trans (annotated_linked_eq_error.mpr ⟨rfl, hlook⟩)

/-- A manager that leaves documentation alone annotates every entry. -/
theorem exists_annotated_unlinked (m : Manager) (source : Sources) (e : Entry) : ∃ e', m.unlinked.annotated source e = .ok e' :=
  ⟨e, annotated_of_plain rfl source e⟩

/-- What installs without lookups installs with them unless one of them fails. -/
theorem exists_installed_linked_iff : (∃ text', m.linked.installed source e text = .ok text') ↔
    (∃ text', m.unlinked.installed source e text = .ok text') ∧
      ¬(Page.isInstalled (lines text) e m.settings = .ok false ∧ given e.docLink = none ∧ m.Misled source e) := by
  rw [exists_installed_iff, exists_installed_iff, exists_annotated_linked_iff]
  have hunlinked := exists_annotated_unlinked m source e
  change (Page.isInstalled (lines text) e m.settings = _ ∨ Page.isInstalled (lines text) e m.settings = _ ∧ _) ↔
    (Page.isInstalled (lines text) e m.settings = _ ∨ Page.isInstalled (lines text) e m.settings = _ ∧ _) ∧ _
  cases Page.isInstalled (lines text) e m.settings with
  | error fault => simp
  | ok found => cases found <;> simp [hunlinked, and_comm]

/-- With links to documentation a page can be normalized exactly if it can without, and no script of it misleads. -/
theorem exists_normalized_linked_iff : (∃ text', m.linked.normalized source target text = .ok text') ↔
    (∃ text', m.unlinked.normalized source target text = .ok text') ∧
      ∀ p ∈ Page.plainEntries (lines text) target, ¬ m.Misled source p.2 := by
  rw [exists_normalized_iff, exists_normalized_iff, ← forall₂_and]
  refine forall₂_congr fun p hp => ?_
  obtain ⟨line, -, hline⟩ := Page.exists_line_of_mem_plainEntries hp
  rw [exists_annotated_linked_iff, Page.docLink_of_ofLine? hline]
  simp [given_none, exists_annotated_unlinked]

/-- Where only a URL can stop a text, what stops it is a URL. -/
theorem eq_malformedUrl_of_not_exists {verdict : Except Failure String} (herror : ∀ failure, verdict = .error failure → failure = .malformedUrl)
    (h : ¬∃ text, verdict = .ok text) : verdict = .error .malformedUrl := by
  cases verdict with
  | error failure => rw [herror failure rfl]
  | ok text => exact absurd ⟨text, rfl⟩ h

section Verdicts

variable {verdict verdict' : Except Failure String} (herror : ∀ failure, verdict = .error failure → failure = .malformedUrl)
  (herror' : ∀ failure, verdict' = .error failure → failure = .malformedUrl)

include herror herror'

/-- Of two verdicts of which one is a text if the other is, the first leads to no failure that the second does not lead to, unless
only the first asks for an edit and the wiki refuses it. -/
theorem fails_no_more (hfails : m.concluded target env s verdict = .error failure)
    (h : ∀ page u, s.run env (m.fetch target) = (.ok page, u) → ((∃ text, verdict = .ok text) ↔ ∃ text, verdict' = .ok text)) :
    m.concluded target env s verdict' = .error failure ∨
      m.concluded target env s verdict' = .ok false ∧ verdict' = .ok (m.pageText s target) ∧
        (∃ text, verdict = .ok text ∧ m.pageText s target ≠ text) ∧
        ∃ n message, env.outage n (.save (m.settings.targetTitle target)) = some message ∧ failure = .transport message := by
  obtain hfetch | ⟨page, u, hfetch, hfailure | ⟨text, hverdict, hdiff, hsaving⟩⟩ := concluded_eq_error.mp hfails
  · exact Or.inl (concluded_eq_error.mpr (Or.inl hfetch))
  · have hnone : ¬∃ text, verdict' = .ok text := fun hsome => by
      obtain ⟨text, htext⟩ := (h page u hfetch).mpr hsome
      exact nomatch hfailure.symm.trans htext
    rw [herror failure hfailure]
    exact Or.inl (concluded_eq_error.mpr (Or.inr ⟨page, u, hfetch, Or.inl (eq_malformedUrl_of_not_exists herror' hnone)⟩))
  · obtain ⟨text', htext'⟩ := (h page u hfetch).mp ⟨text, hverdict⟩
    by_cases hsame : m.pageText s target = text'
    · refine Or.inr ⟨?_, by rw [htext', hsame], ⟨text, hverdict, hdiff⟩, saving_error hsaving⟩
      rw [concluded, hfetch, htext']
      change m.conclude target env u text' = _
      rw [conclude, if_pos ((pageText_of_text (fetch_ok hfetch).2.1 target).trans hsame)]
    · exact Or.inl (concluded_eq_error.mpr (Or.inr ⟨page, u, hfetch, Or.inr ⟨text', htext', hsame, hsaving⟩⟩))

omit herror' in
/-- A verdict that is no text leads to a failure that no text leads to. -/
theorem fails_more {page : List String} {text : String} (hfetch : s.run env (m.fetch target) = (.ok page, u))
    (hnone : ¬∃ text, verdict = .ok text) (htext : verdict' = .ok text) :
    m.concluded target env s verdict = .error .malformedUrl ∧ m.concluded target env s verdict' ≠ .error .malformedUrl := by
  refine ⟨concluded_eq_error.mpr (Or.inr ⟨page, u, hfetch, Or.inl (eq_malformedUrl_of_not_exists herror hnone)⟩), fun h => ?_⟩
  obtain h | ⟨_, _, -, h | ⟨_, -, -, h⟩⟩ := concluded_eq_error.mp h
  · obtain ⟨message, h⟩ := fetch_error h
    cases h
  · exact nomatch htext.symm.trans h
  · obtain ⟨_, message, -, h⟩ := saving_error h
    cases h

end Verdicts

/-- Installing with lookups fails in no other way than without them unless it comes to a lookup that fails. -/
theorem install_linked_fails_no_more_iff :
    (∀ failure, (s.run env (m.linked.install e)).1 = .error failure → (s.run env (m.unlinked.install e)).1 = .error failure) ↔
      ¬∃ page u, s.run env (m.fetch e.target) = (.ok page, u) ∧ Page.isInstalled page e m.settings = .ok false ∧
        given e.docLink = none ∧ m.Misled env.source e := by
  have hlinked : (s.run env (m.linked.install e)).1 =
      m.concluded e.target env s (m.linked.installed env.source e (m.pageText s e.target)) := run_install_fst m.linked e env s
  have hunlinked : (s.run env (m.unlinked.install e)).1 =
      m.concluded e.target env s (m.unlinked.installed env.source e (m.pageText s e.target)) := run_install_fst m.unlinked e env s
  rw [hlinked, hunlinked]
  constructor
  · rintro h ⟨page, u, hfetch, missing, hlook⟩
    rw [(fetch_ok hfetch).1, pageLines] at missing
    have hnone : ¬∃ text, m.linked.installed env.source e (m.pageText s e.target) = .ok text := fun hsome =>
      (exists_installed_linked_iff.mp hsome).2 ⟨missing, hlook⟩
    obtain ⟨text, htext⟩ := (exists_installed_iff (m := m.unlinked)).mpr
      (Or.inr ⟨missing, hlook.2.isCss, exists_annotated_unlinked m env.source e⟩)
    obtain ⟨hfails, hworks⟩ := fails_more (fun _ => installed_error) hfetch hnone htext
    exact hworks (h _ hfails)
  · intro hno failure hfails
    have hboth : ∀ page u, s.run env (m.fetch e.target) = (.ok page, u) →
        ((∃ text, m.linked.installed env.source e (m.pageText s e.target) = .ok text) ↔
          ∃ text, m.unlinked.installed env.source e (m.pageText s e.target) = .ok text) := by
      intro page u hfetch
      rw [exists_installed_linked_iff, and_iff_left_iff_imp]
      rintro - ⟨missing, hlook⟩
      refine hno ⟨page, u, hfetch, ?_, hlook⟩
      rw [(fetch_ok hfetch).1]
      exact missing
    obtain h | ⟨-, hsame, ⟨text, htext, hdiff⟩, -⟩ :=
      fails_no_more (fun _ => installed_error) (fun _ => installed_error) hfails hboth
    · exact h
    · exfalso
      -- A text that is the old one means that the page loads the script, and then there is nothing to look up.
      obtain found | ⟨missing, -⟩ := (exists_installed_iff (m := m.linked)).mp ⟨_, htext⟩
      · rw [installed, found] at htext
        exact hdiff (Except.ok.inj htext)
      · exact installed_ne_of_missing (m := m.unlinked) missing hsame rfl

/-- Normalizing with lookups fails in no other way than without them, unless it comes to a lookup that fails or has an edit that it
would not have without them and that the wiki refuses. -/
theorem normalize_linked_fails_no_more_iff :
    (∀ failure, (s.run env (m.linked.normalize target)).1 = .error failure →
        (s.run env (m.unlinked.normalize target)).1 = .error failure ∨
          (s.run env (m.unlinked.normalize target)).1 = .ok false ∧
            ∃ n message, env.outage n (.save (m.settings.targetTitle target)) = some message ∧ failure = .transport message) ↔
      ¬∃ page u, s.run env (m.fetch target) = (.ok page, u) ∧ (∃ p ∈ Page.plainEntries page target, m.Misled env.source p.2) ∧
        ∀ p ∈ Page.plainEntries page target, ∃ statement, p.2.statement m.settings = .ok statement := by
  have hlinked : (s.run env (m.linked.normalize target)).1 =
      m.concluded target env s (m.linked.normalized env.source target (m.pageText s target)) := run_normalize_fst m.linked target env s
  have hunlinked : (s.run env (m.unlinked.normalize target)).1 =
      m.concluded target env s (m.unlinked.normalized env.source target (m.pageText s target)) :=
    run_normalize_fst m.unlinked target env s
  have hwritten : (∃ text, m.unlinked.normalized env.source target (m.pageText s target) = .ok text) ↔
      ∀ p ∈ Page.plainEntries (m.pageLines s target) target, ∃ statement, p.2.statement m.settings = .ok statement := by
    rw [exists_normalized_iff]
    refine forall₂_congr fun p _ => ?_
    rw [exists_statement_iff, and_iff_left (exists_annotated_unlinked m env.source p.2)]
  rw [hlinked, hunlinked]
  constructor
  · rintro h ⟨page, u, hfetch, ⟨p, hp, hmisled⟩, hstatements⟩
    rw [(fetch_ok hfetch).1] at hp hstatements
    have hnone : ¬∃ text, m.linked.normalized env.source target (m.pageText s target) = .ok text := fun hsome =>
      (exists_normalized_linked_iff.mp hsome).2 p hp hmisled
    obtain ⟨text, htext⟩ := hwritten.mpr hstatements
    obtain ⟨hfails, hworks⟩ := fails_more (fun _ => normalized_error) hfetch hnone htext
    obtain h | ⟨-, _, _, -, h⟩ := h _ hfails
    · exact hworks h
    · cases h
  · intro hno failure hfails
    have hboth : ∀ page u, s.run env (m.fetch target) = (.ok page, u) →
        ((∃ text, m.linked.normalized env.source target (m.pageText s target) = .ok text) ↔
          ∃ text, m.unlinked.normalized env.source target (m.pageText s target) = .ok text) := by
      intro page u hfetch
      rw [exists_normalized_linked_iff, and_iff_left_iff_imp]
      intro hsome p hp hmisled
      rw [hwritten, ← (fetch_ok hfetch).1] at hsome
      rw [← pageLines, ← (fetch_ok hfetch).1] at hp
      exact hno ⟨page, u, hfetch, ⟨p, hp, hmisled⟩, hsome⟩
    obtain h | ⟨hfalse, -, -, hrefused⟩ :=
      fails_no_more (fun _ => normalized_error) (fun _ => normalized_error) hfails hboth
    · exact Or.inl h
    · exact Or.inr ⟨hfalse, hrefused⟩

/-! ## Documentation lookups fail open -/

/-- Looking the documentation of a script up fails exactly if its source names it by what looks like a URL and is none, and annotating
fails exactly if it asks for such a lookup. Operations fail in no way in which they would not fail without lookups exactly if they do
not come to such a lookup. Installing comes to it if the page can be fetched and does not load the script; normalizing comes to it if
the page can be fetched and holds a statement of such a script, while each of its statements can be written. With lookups normalizing
may have an edit where it has none without them; that the wiki refuses this edit does not count. -/
theorem lookups_fail_open_iff (m : Manager) (e : Entry) (target : String) (env : Surroundings) (s : Session) :
    (∀ failure, (s.run env (m.documentation? e)).1 = .error failure ↔ failure = .malformedUrl ∧ m.Misled env.source e) ∧
    (∀ failure, (s.run env (m.linked.annotate e)).1 = .error failure ↔
      failure = .malformedUrl ∧ given e.docLink = none ∧ m.Misled env.source e) ∧
    ((∀ failure, (s.run env (m.linked.install e)).1 = .error failure → (s.run env (m.unlinked.install e)).1 = .error failure) ↔
      ¬∃ page u, s.run env (m.fetch e.target) = (.ok page, u) ∧ Page.isInstalled page e m.settings = .ok false ∧
        given e.docLink = none ∧ m.Misled env.source e) ∧
    ((∀ failure, (s.run env (m.linked.normalize target)).1 = .error failure →
        (s.run env (m.unlinked.normalize target)).1 = .error failure ∨
          (s.run env (m.unlinked.normalize target)).1 = .ok false ∧
            ∃ n message, env.outage n (.save (m.settings.targetTitle target)) = some message ∧ failure = .transport message) ↔
      ¬∃ page u, s.run env (m.fetch target) = (.ok page, u) ∧ (∃ p ∈ Page.plainEntries page target, m.Misled env.source p.2) ∧
        ∀ p ∈ Page.plainEntries page target, ∃ statement, p.2.statement m.settings = .ok statement) := by
  refine ⟨fun failure => ?_, fun failure => ?_, install_linked_fails_no_more_iff, normalize_linked_fails_no_more_iff⟩
  · rw [run_documentation_fst]
    exact consulted_eq_error
  · rw [run_annotate_fst]
    exact annotated_linked_eq_error

/-- The source of a script names its documentation by a host with a stray bracket: the lookup fails, and so does installing the
script on an empty page, which works without lookups. -/
theorem lookup_of_stray_bracket_blocks_installation :
    ∃ (m : Manager) (e : Entry) (env : Surroundings) (s : Session),
      0 ≤ m.settings.docScanLimit ∧ env.Calm ∧ (∀ host page, env.source host page = .ok "// @documentation https://[x/wiki/Y") ∧
      (s.run env (m.documentation? e)).1 = .error .malformedUrl ∧ (s.run env (m.linked.annotate e)).1 = .error .malformedUrl ∧
      (s.run env (m.linked.install e)).1 = .error .malformedUrl ∧ (s.run env (m.unlinked.install e)).1 = .ok true := by
  let m : Manager := { settings := { serverName := "en.wikipedia.org", userName := "U" } }
  let e := Entry.ofPage "User:A/x.js" (by decide) none "common" false
  let env : Surroundings := { source := fun _ _ => .ok "// @documentation https://[x/wiki/Y" }
  let s : Session := {}
  have hlimit : 0 ≤ m.settings.docScanLimit := by decide
  exact ⟨m, e, env, s, hlimit, fun _ _ => rfl, fun _ _ => rfl, by decide +kernel, by decide +kernel, by decide +kernel, by decide +kernel⟩

end Manager

end UserScripts
