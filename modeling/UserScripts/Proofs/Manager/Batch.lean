import UserScripts.Proofs.Manager.FailOpen
import UserScripts.Proofs.Session.Refusal

/-!
# Batches

Normalizing the targets of a list one after the other. A call that is refused stops the target that it is about and no other one: that
target is reported as an error and its page is left as it was, and each of the others comes out as if it were the only one. One failure
is not caught: a URL that is none, in a statement of a page that can be read, ends the whole batch. Main statement:
`batch_isolates_targets_iff`.
-/

namespace UserScripts

open UserScripts.Text

/-- Pairs with different keys are kept as they are. -/
theorem Keyed.ofPairs_of_nodup {κ α : Type} [DecidableEq κ] {pairs : List (κ × α)} (h : (pairs.map Prod.fst).Nodup) :
    Keyed.ofPairs pairs = pairs := by
  have hput (key : κ) (value : α) (entries : Keyed κ α) (hkey : key ∉ entries.map Prod.fst) :
      Keyed.put key value entries = entries ++ [(key, value)] := by
    induction entries with
    | nil => rfl
    | cons entry rest ih =>
      rw [List.map_cons, List.mem_cons, not_or] at hkey
      rw [Keyed.put, if_neg (Ne.symm hkey.1), ih hkey.2, List.cons_append]
  suffices ∀ entries : Keyed κ α, (entries.map Prod.fst ++ pairs.map Prod.fst).Nodup →
      pairs.foldl (fun entries p => Keyed.put p.1 p.2 entries) entries = entries ++ pairs from this [] h
  clear h
  induction pairs with
  | nil => exact fun entries _ => (List.append_nil entries).symm
  | cons p pairs ih =>
    intro entries h
    have hfresh : p.1 ∉ entries.map Prod.fst := fun hmem =>
      (List.nodup_append.mp h).2.2 _ hmem _ List.mem_cons_self rfl
    rw [List.foldl_cons, hput _ _ _ hfresh, ih, List.append_assoc, List.singleton_append]
    rwa [List.map_append, List.append_assoc]

/-- An entry can be written unless its URL is none. -/
theorem Entry.exists_isCss_iff (e : Entry) :
    (∃ css, e.isCss = .ok css) ↔ ∀ url, e.source = .address url → ∃ parts, Url.split url.toList = .ok parts := by
  unfold isCss
  cases e.source with
  | own page => exact iff_of_true ⟨_, rfl⟩ fun url h => by cases h
  | «foreign» wiki page => exact iff_of_true ⟨_, rfl⟩ fun url h => by cases h
  | address url =>
    dsimp only
    cases hsplit : Url.split url.toList with
    | error fault =>
      refine iff_of_false (fun ⟨_, h⟩ => by cases h) fun h => ?_
      obtain ⟨parts, h⟩ := h url rfl
      exact nomatch hsplit.symm.trans h
    | ok parts =>
      refine iff_of_true ⟨_, rfl⟩ fun url' hurl => ?_
      cases hurl
      exact ⟨parts, hsplit⟩

namespace Manager

open Routine

variable {α β : Type} {m : Manager} {target other : String} {targets : List String} {env env' : Surroundings} {s s' t u : Session}

/-! ## Refused calls of a target -/

/-- Whether reading or saving the page of a target is among some calls. -/
def Refused (m : Manager) (target : String) (calls : List (Site × Call)) : Prop :=
  (m.siteOf target, .read (m.settings.targetTitle target)) ∈ calls ∨ (m.siteOf target, .save (m.settings.targetTitle target)) ∈ calls

/-- A call for a target is refused among two runs of calls if it is among one of them. -/
theorem refused_append {calls calls' : List (Site × Call)} :
    m.Refused target (calls ++ calls') ↔ m.Refused target calls ∨ m.Refused target calls' := by
  simp only [Refused, List.mem_append]
  exact or_or_or_comm

/-- Without refused calls no target is refused. -/
theorem not_refused_nil : ¬m.Refused target [] := by
  simp [Refused]

/-- Whether some calls are all about the page of a target. -/
def About (m : Manager) (target : String) (calls : List (Site × Call)) : Prop :=
  ∀ c ∈ calls, c = (m.siteOf target, .read (m.settings.targetTitle target)) ∨ c = (m.siteOf target, .save (m.settings.targetTitle target))

/-- Calls about the page of a target are not about another page. -/
theorem About.not_refused {calls : List (Site × Call)} (h : m.About other calls) (pages : m.DifferentPages s target other) :
    ¬m.Refused target calls := by
  have hne : ¬(m.siteOf target = m.siteOf other ∧ m.settings.targetTitle target = m.settings.targetTitle other) := by
    rintro ⟨hsite, htitle⟩
    rcases pages with hpage | ⟨hother, -⟩
    · exact hpage htitle.symm
    · exact hother hsite.symm
  rintro (hmem | hmem) <;> obtain heq | heq := h _ hmem <;> simp_all

/-- A part of a run on a target that stops at the first refused call: none is refused, or one of the page of the target, and then the
part fails and tells why. -/
def Stops (m : Manager) (target : String) (env : Surroundings) (s : Session) (r : Routine α) : Prop :=
  s.refusals env r = [] ∨ ∃ c message, m.About target [c] ∧ s.refusals env r = [c] ∧ (s.run env r).1 = .error (.transport message)

/-- Two parts in sequence stop at the first refused call if each of them does. -/
theorem Stops.bind {r : Routine α} {f : α → Routine β} (hr : m.Stops target env s r)
    (hf : ∀ a u, s.run env r = (.ok a, u) → m.Stops target env u (f a)) : m.Stops target env s (r >>= f) := by
  obtain hnone | ⟨c, message, habout, hc, hfail⟩ := hr
  · cases hrun : s.run env r with
    | mk outcome u =>
      cases outcome with
      | error e => exact Or.inl ((Session.refusals_bind_of_error (congrArg Prod.fst hrun) f).trans hnone)
      | ok a =>
        have hfirst : (s.run env r).1 = .ok a := congrArg Prod.fst hrun
        rw [Stops, Session.refusals_bind_of_ok hfirst, Session.run_bind_of_ok hfirst, hnone, hrun, List.nil_append]
        exact hf a u hrun
  · refine Or.inr ⟨c, message, habout, (Session.refusals_bind_of_error hfail f).trans hc, ?_⟩
    rw [Session.run_bind_of_error hfail]

/-- A part that makes no call stops at none. -/
theorem Stops.of_quiet {r : Routine α} (h : r.Quiet) : m.Stops target env s r :=
  Or.inl (Session.refusals_of_quiet h env s)

/-- Fetching a target stops at the refused read. -/
theorem stops_fetch (m : Manager) (target : String) (env : Surroundings) (s : Session) : m.Stops target env s (m.fetch target) := by
  rw [Stops, fetch, Session.refusals_bind, Session.run_bind, Session.run_query]
  simp only [Session.answer]
  obtain ⟨n, call, message, -, hread⟩ | hread := read_cases env s (m.siteOf target) (m.settings.targetTitle target)
  · refine Or.inr ⟨_, message, fun c hc => Or.inl (List.mem_singleton.mp hc), ?_, ?_⟩
    · rw [Session.refusals_of_quiet (quiet_after_read target _), List.append_nil, Routine.query, Session.refusals_ask]
      simp only [Session.answer, hread]
      rfl
    · rw [hread]
      rfl
  · left
    rw [Session.refusals_of_quiet (quiet_after_read target _), List.append_nil, Routine.query, Session.refusals_ask]
    simp only [Session.answer, hread]
    rfl

/-- Submitting a change stops at the refused save. -/
theorem stops_submit (m : Manager) (target summary : String) (change : Change) (env : Surroundings) (s : Session) :
    m.Stops target env s (m.submit target summary change) := by
  rw [Stops, run_submit_fst, submit, Session.refusals_bind, Session.run_query]
  simp only [Session.answer]
  obtain ⟨n, call, message, -, hsave⟩ | hsave :=
    save_cases env s (m.siteOf target) ⟨m.settings.targetTitle target, summary, change⟩
  · refine Or.inr ⟨_, message, fun c hc => Or.inr (List.mem_singleton.mp hc), ?_, hsave⟩
    rw [Session.refusals_of_quiet (quiet_after_save m target summary _), List.append_nil, Routine.query, Session.refusals_ask]
    simp only [Session.answer, hsave]
    rfl
  · left
    rw [Session.refusals_of_quiet (quiet_after_save m target summary _), List.append_nil, Routine.query, Session.refusals_ask]
    simp only [Session.answer, hsave]
    rfl

/-- Committing a change stops at the first refused call, if it makes one. -/
theorem stops_commit (m : Manager) (target summary : String) (old new : List String) (env : Surroundings) (s : Session) :
    m.Stops target env s (m.commit target summary old new) := by
  unfold commit
  split
  · exact .of_quiet ((quiet_say _ _).bind fun _ => Quiet.pure false)
  · exact (stops_submit m target summary _ env s).bind fun _ _ _ => .of_quiet (Quiet.pure true)

/-- What is carried out under a key stops where it does without. -/
theorem Stops.holding {key : String} {r : Routine α} (h : m.Stops target env s r) : m.Stops target env s (holding key r) := by
  have hrefusals : s.refusals env (Manager.holding key r) = s.refusals env r := by
    rw [Manager.holding, Session.refusals_bind, Session.run_query]
    simp only [Session.answer]
    rw [Session.refusals_bind, Session.refusals_attempt, Session.run_attempt]
    exact List.append_nil _
  rwa [Stops, hrefusals, run_holding]

/-- Normalizing stops at the first refused call. -/
theorem stops_normalize (m : Manager) (target : String) (env : Surroundings) (s : Session) :
    m.Stops target env s (m.normalize target) := by
  refine Stops.holding ((stops_fetch m target env s).bind fun page u _ => ?_)
  refine (Stops.of_quiet (Quiet.notes _)).bind fun _ u _ => ?_
  refine (Stops.of_quiet (quiet_annotateAll m _)).bind fun annotated u _ => ?_
  exact (Stops.of_quiet (Quiet.ofExcept _)).bind fun statements u _ => stops_commit m target _ _ _ env u

/-- Normalizing changes no page but that of its target. -/
theorem frame_normalize (m : Manager) (target : String) (env : Surroundings) (s : Session) :
    m.FrameOf target env s (m.normalize target) := by
  refine frame_holding ((frame_fetch m target _ _ env s).bind fun page u _ => ?_)
  refine (Session.Frame.of_quiet (Quiet.notes _)).bind fun _ u _ => ?_
  refine (Session.Frame.of_quiet (quiet_annotateAll m _)).bind fun annotated u _ => ?_
  exact (Session.Frame.of_quiet (Quiet.ofExcept _)).bind fun statements u _ => frame_commit m target _ _ _ env u

/-! ## One target -/

/-- How what normalizing comes to is reported. -/
def reported : Except Failure Bool → Except Failure Status
  | .ok true => .ok .normalized
  | .ok false => .ok .unchanged
  | .error .malformedUrl => .error .malformedUrl
  | .error _ => .ok .error

/-- Normalizing with a report runs as normalizing does; its failures are turned into a status, but for that of a URL. -/
theorem run_normalizeReporting (m : Manager) (target : String) (env : Surroundings) (s : Session) :
    (s.run env (m.normalizeReporting target)).1 = reported (s.run env (m.normalize target)).1 ∧
      (s.run env (m.normalizeReporting target)).2.service = (s.run env (m.normalize target)).2.service ∧
      s.refusals env (m.normalizeReporting target) = s.refusals env (m.normalize target) := by
  rw [normalizeReporting, Session.refusals_bind, Session.refusals_attempt, Session.run_bind, Session.run_attempt]
  generalize (s.run env (m.normalize target)).2 = t
  cases (s.run env (m.normalize target)).1 with
  | ok changed => cases changed <;> exact ⟨rfl, rfl, List.append_nil _⟩
  | error failure => cases failure <;> exact ⟨rfl, rfl, List.append_nil _⟩

/-- Normalizing with a report leaves the pages that normalizing leaves. -/
theorem pageText_normalizeReporting (m : Manager) (target other : String) (env : Surroundings) (s : Session) :
    m.pageText (s.run env (m.normalizeReporting target)).2 other = m.pageText (s.run env (m.normalize target)).2 other :=
  pageText_of_service (run_normalizeReporting m target env s).2.1 other

/-- Reporting on a target leaves all other pages as they are. -/
theorem aside_normalizeReporting (m : Manager) (target : String) (env : Surroundings) (s : Session) :
    Session.Aside (m.siteOf target) (m.settings.targetTitle target) s (s.run env (m.normalizeReporting target)).2 := by
  refine Session.Frame.run (.bind (frame_normalize m target env s).attempt fun outcome u _ => .of_quiet ?_)
  rcases outcome with failure | changed
  · cases failure <;> first | exact .done _ | exact (Quiet.query rfl).bind fun _ => .done _
  · cases changed <;> exact .done _

/-- The calls that are refused while a target is reported on are about its page. -/
theorem about_normalizeReporting (m : Manager) (target : String) (env : Surroundings) (s : Session) :
    m.About target (s.refusals env (m.normalizeReporting target)) := by
  rw [(run_normalizeReporting m target env s).2.2]
  obtain hnone | ⟨c, message, habout, hc, -⟩ := stops_normalize m target env s
  · rw [hnone]
    exact fun c hc => nomatch hc
  · rwa [hc]

/-- After a refused call a target is reported as an error, and its page is as it was. -/
theorem report_of_refused (h : s.refusals env (m.normalizeReporting target) ≠ []) :
    m.Refused target (s.refusals env (m.normalizeReporting target)) ∧ (s.run env (m.normalizeReporting target)).1 = .ok .error ∧
      m.pageText (s.run env (m.normalizeReporting target)).2 target = m.pageText s target := by
  obtain ⟨hfst, -, hrefusals⟩ := run_normalizeReporting m target env s
  rw [hrefusals] at h ⊢
  obtain hnone | ⟨c, message, habout, hc, hfail⟩ := stops_normalize m target env s
  · exact absurd hnone h
  · have hunchanged : s.Unchanged (s.run env (m.normalize target)).2 := honest_normalize.unchanged (by rw [hfail]; simp)
    refine ⟨?_, by rw [hfst, hfail]; rfl, ?_⟩
    · rw [hc]
      exact (habout c List.mem_cons_self).imp (fun hread => List.mem_singleton.mpr hread.symm) fun hsave => List.mem_singleton.mpr hsave.symm
    · rw [pageText_normalizeReporting, pageText_of_text hunchanged.text]

/-- Without documentation links the sources of scripts do not matter to what normalizing makes of a text. -/
theorem normalized_of_plain (plain : m.linksDocs = false) (source source' : Sources) (target text : String) :
    m.normalized source target text = m.normalized source' target text := by
  simp only [normalized, annotated_of_plain plain]

/-- While no call is refused, what a target comes to is decided by the text of its page alone. -/
theorem run_normalize_of_served (h : s.refusals env (m.normalize target) = []) :
    (s.run env (m.normalize target)).1 =
        (m.normalized env.source target (m.pageText s target)).map (fun text => decide (m.pageText s target ≠ text)) ∧
      m.pageText (s.run env (m.normalize target)).2 target =
        (m.normalized env.source target (m.pageText s target)).toOption.getD (m.pageText s target) := by
  have calm : ({ source := env.source } : Surroundings).Calm := fun _ _ => rfl
  have hsource : ({ source := env.source } : Surroundings).source = env.source := rfl
  rw [Session.run_of_refusals_eq_nil calm hsource h]
  have houtcome := outcome_normalize m target { source := env.source } s
  have hfst := houtcome.of_calm calm
  refine ⟨hfst, ?_⟩
  cases hverdict : m.normalized env.source target (m.pageText s target) with
  | error failure =>
    rw [hverdict] at hfst
    have hunchanged : s.Unchanged (s.run { source := env.source } (m.normalize target)).2 :=
      honest_normalize.unchanged (by rw [hfst]; simp [Except.map])
    exact pageText_of_text hunchanged.text target
  | ok text =>
    rw [hverdict] at houtcome
    exact houtcome.pageText_of_calm calm

/-- While no call is refused, a target comes out as in any other calm run that starts with the same page. -/
theorem report_alone (plain : m.linksDocs = false) (h : s.refusals env (m.normalizeReporting target) = []) (calm : env'.Calm)
    (hpage : m.pageText s target = m.pageText s' target) :
    (s.run env (m.normalizeReporting target)).1 = (s'.run env' (m.normalizeReporting target)).1 ∧
      m.pageText (s.run env (m.normalizeReporting target)).2 target = m.pageText (s'.run env' (m.normalizeReporting target)).2 target := by
  obtain ⟨hfst, -, hrefusals⟩ := run_normalizeReporting m target env s
  obtain ⟨hfst', -, -⟩ := run_normalizeReporting m target env' s'
  obtain ⟨hrun, htext⟩ := run_normalize_of_served (hrefusals.symm.trans h)
  obtain ⟨hrun', htext'⟩ := run_normalize_of_served (Session.refusals_of_calm calm s' (m.normalize target))
  rw [hpage, normalized_of_plain plain env.source env'.source] at hrun htext
  rw [hfst, hfst', pageText_normalizeReporting, pageText_normalizeReporting, hrun, hrun', htext, htext']
  exact ⟨rfl, rfl⟩

/-- Whether every statement outside the wrappers of a page can be written: no URL of them is none. -/
def Writable (page : List String) (target : String) : Prop :=
  ∀ p ∈ Page.plainEntries page target, ∀ url, p.2.source = .address url → ∃ parts, Url.split url.toList = .ok parts

/-- Without links to documentation a page can be normalized exactly if its statements can be written. -/
theorem exists_normalized_iff_writable (plain : m.linksDocs = false) (source : Sources) (target text : String) :
    (∃ text', m.normalized source target text = .ok text') ↔ Writable (lines text) target := by
  rw [exists_normalized_iff]
  refine forall₂_congr fun p _ => ?_
  rw [and_iff_left ⟨p.2, annotated_of_plain plain source p.2⟩, Entry.exists_isCss_iff]

/-- While no call is refused, a target is never reported as an error, and it is reported on exactly if its statements can be
written. -/
theorem report_of_served (plain : m.linksDocs = false) (h : s.refusals env (m.normalizeReporting target) = []) :
    (∃ status, (s.run env (m.normalizeReporting target)).1 = .ok status ∧ status ≠ .error ∧ Writable (m.pageLines s target) target) ∨
      (s.run env (m.normalizeReporting target)).1 = .error .malformedUrl ∧ ¬Writable (m.pageLines s target) target := by
  obtain ⟨hfst, -, hrefusals⟩ := run_normalizeReporting m target env s
  have hrun := (run_normalize_of_served (hrefusals.symm.trans h)).1
  have hwritable := exists_normalized_iff_writable plain env.source target (m.pageText s target)
  rw [hfst, hrun, pageLines, ← hwritable]
  cases hverdict : m.normalized env.source target (m.pageText s target) with
  | error failure =>
    rw [normalized_error hverdict]
    refine Or.inr ⟨rfl, ?_⟩
    rintro ⟨_, h⟩
    cases h
  | ok text =>
    left
    rw [Except.map]
    cases decide (m.pageText s target ≠ text) with
    | true => exact ⟨.normalized, rfl, by decide, text, rfl⟩
    | false => exact ⟨.unchanged, rfl, by decide, text, rfl⟩

/-! ## Batches -/

/-- How a target of a batch comes out: it is reported as an error exactly if one of its calls was refused, then its page is as it was,
and otherwise its status and its page are those of normalizing it alone. -/
structure Isolated (m : Manager) (s t : Session) (calls : List (Site × Call)) (target : String) (status : Status) : Prop where
  error_iff : status = .error ↔ m.Refused target calls
  unchanged : status = .error → m.pageText t target = m.pageText s target
  alone : status ≠ .error → ∀ env' : Surroundings, env'.Calm → (s.run env' (m.normalizeReporting target)).1 = .ok status ∧
    m.pageText t target = m.pageText (s.run env' (m.normalizeReporting target)).2 target

/-- After a target has been reported on, the batch goes on with the others. -/
theorem refusals_normalizeAll_cons {rest : List String} {status : Status}
    (h : s.run env (m.normalizeReporting target) = (.ok status, u)) :
    s.refusals env (m.normalizeAll (target :: rest)) =
      s.refusals env (m.normalizeReporting target) ++ u.refusals env (m.normalizeAll rest) := by
  have hrest : u.refusals env (m.normalizeAll rest >>= fun others => pure ((target, status) :: others)) =
      u.refusals env (m.normalizeAll rest) := by
    rw [Session.refusals_bind]
    cases u.run env (m.normalizeAll rest) with
    | mk outcome v => cases outcome <;> exact List.append_nil _
  rw [normalizeAll, Session.refusals_bind, h]
  exact congrArg _ hrest

/-- A failure that is not reported ends the batch: nothing after its target is asked. -/
theorem refusals_normalizeAll_cons_of_error {rest : List String} {failure : Failure}
    (h : (s.run env (m.normalizeReporting target)).1 = .error failure) :
    s.refusals env (m.normalizeAll (target :: rest)) = s.refusals env (m.normalizeReporting target) := by
  rw [normalizeAll, Session.refusals_bind_of_error h]

/-- A batch leaves all pages as they are but those of its targets. -/
theorem pageText_normalizeAll (env : Surroundings) (h : ∀ target ∈ targets, m.DifferentPages s target other) :
    ((s.run env (m.normalizeAll targets)).2.central = none ↔ s.central = none) ∧
      m.pageText (s.run env (m.normalizeAll targets)).2 other = m.pageText s other := by
  induction targets generalizing s with
  | nil => exact ⟨Iff.rfl, rfl⟩
  | cons target rest ih =>
    have haside := aside_normalizeReporting m target env s
    have hfirst := pageText_of_aside (h target List.mem_cons_self) haside
    rw [normalizeAll, Session.run_bind]
    cases hreport : s.run env (m.normalizeReporting target) with
    | mk outcome u =>
      rw [hreport] at haside hfirst
      cases outcome with
      | error failure => exact ⟨haside.central, hfirst⟩
      | ok status =>
        obtain ⟨hcentral, hpage⟩ := ih (s := u) fun target' ht => (h target' (List.mem_cons_of_mem _ ht)).of_central haside.central
        dsimp only
        rw [Session.run_bind]
        cases hall : u.run env (m.normalizeAll rest) with
        | mk outcome v =>
          rw [hall] at hcentral hpage
          cases outcome <;> exact ⟨hcentral.trans haside.central, hpage.trans hfirst⟩

/-- The calls that are refused in a batch are about its targets. -/
theorem not_refused_normalizeAll (env : Surroundings) (h : ∀ target ∈ targets, m.DifferentPages s target other) :
    ¬m.Refused other (s.refusals env (m.normalizeAll targets)) := by
  induction targets generalizing s with
  | nil => exact not_refused_nil
  | cons target rest ih =>
    have haside := aside_normalizeReporting m target env s
    have hfirst := (about_normalizeReporting m target env s).not_refused (h target List.mem_cons_self).symm
    cases hreport : s.run env (m.normalizeReporting target) with
    | mk outcome u =>
      rw [hreport] at haside
      cases outcome with
      | error failure => rwa [refusals_normalizeAll_cons_of_error (congrArg Prod.fst hreport)]
      | ok status =>
        rw [refusals_normalizeAll_cons hreport, refused_append, not_or]
        exact ⟨hfirst, ih fun target' ht => (h target' (List.mem_cons_of_mem _ ht)).of_central haside.central⟩

/-- A target that comes later comes out as if nothing had come before it, if that has left its page alone. -/
theorem Isolated.later (plain : m.linksDocs = false) {calls calls' : List (Site × Call)} {status : Status}
    (h : m.Isolated u t calls' target status) (hpage : m.pageText u target = m.pageText s target) (hnot : ¬m.Refused target calls) :
    m.Isolated s t (calls ++ calls') target status where
  error_iff := by rw [refused_append, or_iff_right hnot, h.error_iff]
  unchanged herror := (h.unchanged herror).trans hpage
  alone hne env' calm := by
    obtain ⟨hstatus, htext⟩ := h.alone hne env' calm
    obtain ⟨hsame, hsameText⟩ := report_alone plain (Session.refusals_of_calm calm u (m.normalizeReporting target)) calm hpage
    rw [← hsame, ← hsameText]
    exact ⟨hstatus, htext⟩

/-- A batch that reports on its targets reports on each of them as if it were the only one. -/
theorem isolated_of_normalizeAll (plain : m.linksDocs = false) (pages : targets.Pairwise (m.DifferentPages s))
    {results : List (String × Status)} (h : s.run env (m.normalizeAll targets) = (.ok results, t)) :
    results.map Prod.fst = targets ∧
      ∀ p ∈ results, m.Isolated s t (s.refusals env (m.normalizeAll targets)) p.1 p.2 := by
  induction targets generalizing s t results with
  | nil =>
    obtain ⟨rfl, -⟩ := Session.run_pure_ok h
    exact ⟨rfl, fun p hp => nomatch hp⟩
  | cons target rest ih =>
    obtain ⟨hdiff, pages⟩ := List.pairwise_cons.mp pages
    obtain ⟨status, u, hreport, h⟩ := Session.run_bind_ok h
    obtain ⟨others, v, hall, h⟩ := Session.run_bind_ok h
    obtain ⟨rfl, rfl⟩ := Session.run_pure_ok h
    have haside := aside_normalizeReporting m target env s
    rw [hreport] at haside
    have hkept : ∀ other ∈ rest, m.DifferentPages u other target := fun other hother =>
      ((hdiff other hother).symm).of_central haside.central
    obtain ⟨hkeys, hothers⟩ := ih (pages.imp fun hne => hne.of_central haside.central) hall
    have hlater := (pageText_normalizeAll env hkept).2
    have hnot := not_refused_normalizeAll env hkept
    rw [hall] at hlater
    rw [refusals_normalizeAll_cons hreport]
    refine ⟨by rw [List.map_cons, hkeys], List.forall_mem_cons.mpr ⟨?_, fun p hp => ?_⟩⟩
    · -- The target itself: its calls come first, and nothing that follows is about its page.
      have hrefused : m.Refused target (s.refusals env (m.normalizeReporting target) ++ u.refusals env (m.normalizeAll rest)) ↔
          m.Refused target (s.refusals env (m.normalizeReporting target)) := by rw [refused_append, or_iff_left hnot]
      by_cases hserved : s.refusals env (m.normalizeReporting target) = []
      · obtain ⟨status', hstatus, hne, -⟩ | ⟨herror, -⟩ := report_of_served plain hserved
        · rw [hreport] at hstatus
          cases hstatus
          refine ⟨?_, fun h => absurd h hne, fun _ env' calm => ?_⟩
          · rw [hrefused, hserved]
            exact iff_of_false hne not_refused_nil
          · have halone := report_alone plain hserved calm (rfl : m.pageText s target = m.pageText s target)
            rw [hreport] at halone
            exact ⟨halone.1.symm, hlater.trans halone.2⟩
        · rw [hreport] at herror
          cases herror
      · obtain ⟨hthis, hstatus, hpage⟩ := report_of_refused hserved
        rw [hreport] at hstatus hpage
        cases hstatus
        exact ⟨iff_of_true rfl (hrefused.mpr hthis), fun _ => hlater.trans hpage, fun hne => absurd rfl hne⟩
    · have hmem : p.1 ∈ rest := hkeys ▸ List.mem_map_of_mem hp
      refine (hothers p hp).later plain ?_ ?_
      · exact pageText_of_aside (hdiff p.1 hmem) haside
      · exact (about_normalizeReporting m target env s).not_refused (hdiff p.1 hmem).symm

/-- What ends a batch is a target of which no call was refused and whose page has a statement with a URL that is none. -/
theorem error_of_normalizeAll (plain : m.linksDocs = false) (pages : targets.Pairwise (m.DifferentPages s)) {failure : Failure}
    (h : (s.run env (m.normalizeAll targets)).1 = .error failure) :
    failure = .malformedUrl ∧ ∃ target ∈ targets, ¬m.Refused target (s.refusals env (m.normalizeAll targets)) ∧
      ¬Writable (m.pageLines s target) target := by
  induction targets generalizing s with
  | nil => cases h
  | cons target rest ih =>
    obtain ⟨hdiff, pages⟩ := List.pairwise_cons.mp pages
    obtain hreport | ⟨status, u, hreport, h⟩ := Session.run_bind_error (Prod.ext h rfl)
    · have hserved : s.refusals env (m.normalizeReporting target) = [] := by
        by_contra hne
        exact nomatch (report_of_refused hne).2.1.symm.trans (congrArg Prod.fst hreport)
      obtain ⟨status, hstatus, -⟩ | ⟨herror, hnot⟩ := report_of_served plain hserved
      · exact nomatch hstatus.symm.trans (congrArg Prod.fst hreport)
      · refine ⟨Except.error.inj ((congrArg Prod.fst hreport).symm.trans herror), target, List.mem_cons_self, ?_, hnot⟩
        rw [refusals_normalizeAll_cons_of_error herror, hserved]
        exact not_refused_nil
    · have haside := aside_normalizeReporting m target env s
      rw [hreport] at haside
      obtain hall | ⟨others, v, -, h⟩ := Session.run_bind_error h
      · obtain ⟨hfailure, other, hmem, hnot, hpage⟩ := ih (pages.imp fun hne => hne.of_central haside.central) (congrArg Prod.fst hall)
        refine ⟨hfailure, other, List.mem_cons_of_mem _ hmem, ?_, ?_⟩
        · rw [refusals_normalizeAll_cons hreport, refused_append, not_or]
          exact ⟨(about_normalizeReporting m target env s).not_refused (hdiff other hmem).symm, hnot⟩
        · rwa [pageLines, pageText_of_aside (hdiff other hmem) haside, ← pageLines] at hpage
      · cases h

/-- A batch runs as its targets do one after the other, and the statuses are listed by target. -/
theorem run_normalizeBatch (m : Manager) (targets : List String) (env : Surroundings) (s : Session) :
    s.run env (m.normalizeBatch targets) =
        ((s.run env (m.normalizeAll targets)).1.map Keyed.ofPairs, (s.run env (m.normalizeAll targets)).2) ∧
      s.refusals env (m.normalizeBatch targets) = s.refusals env (m.normalizeAll targets) := by
  rw [normalizeBatch, Session.refusals_bind, Session.run_bind]
  cases s.run env (m.normalizeAll targets) with
  | mk outcome t => cases outcome <;> exact ⟨rfl, List.append_nil _⟩

/-- A batch of targets with different pages, without documentation links and whichever calls are refused, reports on all of its targets
exactly if every target of which no call is refused has a page whose statements outside the wrappers have no URL that is none. Then each
target has one status: it is an error exactly if a call about the page of the target was refused, in which case the page is as it was,
and otherwise status and page are those of normalizing the target alone. In no other way can a batch fail. -/
theorem batch_isolates_targets_iff (m : Manager) (plain : m.linksDocs = false) (targets : List String) (env : Surroundings) (s : Session)
    (pages : targets.Pairwise (m.DifferentPages s)) :
    ((∃ statuses t, s.run env (m.normalizeBatch targets) = (.ok statuses, t) ∧ statuses.map Prod.fst = targets ∧
        ∀ p ∈ statuses, m.Isolated s t (s.refusals env (m.normalizeBatch targets)) p.1 p.2) ↔
      ∀ target ∈ targets, ¬m.Refused target (s.refusals env (m.normalizeBatch targets)) → Writable (m.pageLines s target) target) ∧
    ∀ failure, (s.run env (m.normalizeBatch targets)).1 = .error failure → failure = .malformedUrl := by
  obtain ⟨hrun, hrefusals⟩ := run_normalizeBatch m targets env s
  rw [hrun, hrefusals]
  have nodup : targets.Nodup := pages.imp fun hne => by
    rintro rfl
    exact hne.elim (fun h => h rfl) fun h => h.1 rfl
  cases hall : s.run env (m.normalizeAll targets) with
  | mk outcome t =>
    cases outcome with
    | error failure =>
      obtain ⟨hfailure, target, hmem, hnot, hpage⟩ := error_of_normalizeAll plain pages (congrArg Prod.fst hall)
      refine ⟨iff_of_false (fun ⟨_, _, h, _⟩ => by cases h) fun h => hpage (h target hmem hnot), fun failure' h => ?_⟩
      rw [← Except.error.inj h, hfailure]
    | ok results =>
      obtain ⟨hkeys, hisolated⟩ := isolated_of_normalizeAll plain pages hall
      refine ⟨iff_of_true ⟨results, t, ?_, hkeys, hisolated⟩ fun target hmem hnot => ?_, fun failure h => by cases h⟩
      · rw [Except.map, Keyed.ofPairs_of_nodup (hkeys ▸ nodup)]
      · obtain ⟨p, hp, rfl⟩ := List.mem_map.mp (hkeys ▸ hmem : target ∈ results.map Prod.fst)
        have calm : ({} : Surroundings).Calm := fun _ _ => rfl
        have halone := ((hisolated p hp).alone (mt (hisolated p hp).error_iff.mp hnot) {} calm).1
        obtain ⟨_, -, -, hpage⟩ | ⟨herror, -⟩ := report_of_served plain (Session.refusals_of_calm calm s (m.normalizeReporting p.1))
        · exact hpage
        · exact nomatch halone.symm.trans herror

/-- A page that cannot be saved does not keep another one from being normalized. -/
theorem batch_isolates_targets_iff_refused :
    ∃ (m : Manager) (env : Surroundings) (s t : Session), m.linksDocs = false ∧ ["common", "vector"].Pairwise (m.DifferentPages s) ∧
      s.run env (m.normalizeBatch ["common", "vector"]) = (.ok [("common", .error), ("vector", .normalized)], t) ∧
      m.Refused "common" (s.refusals env (m.normalizeBatch ["common", "vector"])) ∧
      m.pageText t "common" = m.pageText s "common" ∧
      m.pageText t "vector" = m.pageText (s.run {} (m.normalizeReporting "vector")).2 "vector" := by
  let m : Manager := { settings := { serverName := "a.org", userName := "U" } }
  let env : Surroundings := { outage := fun _ call => if call = .save "User:U/common.js" then some "refused" else none }
  let s : Session := { home := { wiki := { pages :=
    [("User:U/common.js", "mw.loader.load( \"X\" );"), ("User:U/vector.js", "mw.loader.load( \"X\" );")] } } }
  have plain : m.linksDocs = false := rfl
  have pages : ["common", "vector"].Pairwise (m.DifferentPages s) :=
    .cons (fun other h => by rw [List.mem_singleton.mp h]; exact Or.inl (by decide)) (.cons (fun _ h => nomatch h) .nil)
  have hrun : (s.run env (m.normalizeBatch ["common", "vector"])).1 = .ok [("common", .error), ("vector", .normalized)] := by
    decide +kernel
  have hentries : ∀ target ∈ ["common", "vector"],
      Page.plainEntries (m.pageLines s target) target = [(0, Entry.ofUrl "X" (by decide) target false)] := by decide +kernel
  have hsplit : (Url.split "X".toList).isOk = true := by decide +kernel
  clear_value m env s
  have calm : ({} : Surroundings).Calm := fun _ _ => rfl
  have hwritable : ∀ target ∈ ["common", "vector"], Writable (m.pageLines s target) target := by
    intro target htarget p hp url hurl
    rw [hentries target htarget, List.mem_singleton] at hp
    rw [hp, Entry.source_ofUrl] at hurl
    cases hurl
    cases hurl : Url.split "X".toList with
    | error fault => rw [hurl] at hsplit; nomatch hsplit
    | ok parts => exact ⟨parts, rfl⟩
  obtain ⟨statuses, t, h, -, hisolated⟩ :=
    (batch_isolates_targets_iff m plain _ env s pages).1.mpr fun target htarget _ => hwritable target htarget
  obtain rfl : statuses = [("common", .error), ("vector", .normalized)] := Except.ok.inj ((congrArg Prod.fst h).symm.trans hrun)
  have hcommon := hisolated _ List.mem_cons_self
  have hvector := hisolated _ (List.mem_cons_of_mem _ List.mem_cons_self)
  exact ⟨m, env, s, t, plain, pages, h, hcommon.error_iff.mp rfl, hcommon.unchanged rfl, (hvector.alone (by decide) {} calm).2⟩

/-- A stray bracket in a URL on one page ends the batch: the next target is not reported on, which alone would be normalized. -/
theorem malformed_url_ends_a_batch :
    ∃ (m : Manager) (s : Session), m.linksDocs = false ∧ ["common", "vector"].Pairwise (m.DifferentPages s) ∧
      m.pageText s "common" = "mw.loader.load('//[x');" ∧ s.refusals {} (m.normalizeBatch ["common", "vector"]) = [] ∧
      (s.run {} (m.normalizeBatch ["common", "vector"])).1 = .error .malformedUrl ∧
      (s.run {} (m.normalizeBatch ["vector"])).1 = .ok [("vector", .normalized)] := by
  let m : Manager := { settings := { serverName := "a.org", userName := "U" } }
  let s : Session := { home := { wiki := { pages :=
    [("User:U/common.js", "mw.loader.load('//[x');"), ("User:U/vector.js", "mw.loader.load( \"X\" );")] } } }
  have pages : ["common", "vector"].Pairwise (m.DifferentPages s) :=
    .cons (fun other h => by rw [List.mem_singleton.mp h]; exact Or.inl (by decide)) (.cons (fun _ h => nomatch h) .nil)
  have calm : ({} : Surroundings).Calm := fun _ _ => rfl
  exact ⟨m, s, rfl, pages, rfl, Session.refusals_of_calm calm s _, by decide +kernel, by decide +kernel⟩

end Manager

end UserScripts
