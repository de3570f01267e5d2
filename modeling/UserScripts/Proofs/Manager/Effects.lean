import UserScripts.Manager.Capture
import UserScripts.Manager.Normalize
import UserScripts.Proofs.Manager.Steps

/-!
# What the operations make of a page

Each operation on a target, carried out alone, either fails and leaves every page as it was, or it makes the page of the target
what the change of its lines says. Main statements: `Operation.careful`, and for each operation the lines that it makes
(`install_ok`, `uninstall_ok`, `setDisabled_ok`, `normalize_ok`, `capture_ok` and `decapture_ok`).
-/

namespace UserScripts

open UserScripts.Text

/-- An operation on a target. -/
inductive Operation where
  | install (e : Entry)
  | uninstall (e : Entry)
  | setDisabled (e : Entry) (disabled : Bool)
  | normalize
  | capture (e : Entry) (name : Option String)
  | decapture (e : Entry)
deriving DecidableEq

/-- The entry that an operation is about. -/
def Operation.entry? : Operation → Option Entry
  | .install e => some e
  | .uninstall e => some e
  | .setDisabled e _ => some e
  | .normalize => none
  | .capture e _ => some e
  | .decapture e => some e

/-- The routine of an operation on a target. -/
def Operation.routine (m : Manager) (target : String) : Operation → Routine Bool
  | .install e => m.install e
  | .uninstall e => m.uninstall e
  | .setDisabled e disabled => m.setDisabled e disabled
  | .normalize => m.normalize target
  | .capture e name => m.capture e name
  | .decapture e => m.decapture e

namespace Manager

open Routine

/-- A value is the same where a malformed URL is turned into a failure of the operation. -/
theorem ofUrl_ok {α : Type} {outcome : Except Url.Malformed α} {a : α} (h : Failure.ofUrl outcome = .ok a) : outcome = .ok a := by
  cases outcome with
  | error malformed => cases h
  | ok b => rw [Except.ok.inj h]

/-! ## Failures -/

/-- An install that fails has changed no page. -/
theorem careful_installUnlocked (m : Manager) (e : Entry) : Careful (m.installUnlocked e) := by
  refine (reads_fetch m e.target).bind_careful fun page => ?_
  refine (quiet_isInstalled m page e).reads.bind_careful fun found => ?_
  cases found with
  | true => exact ((quiet_say _ _).bind fun _ => Quiet.pure false).reads.careful
  | false =>
    refine (quiet_annotate m e).reads.bind_careful fun e' => ?_
    refine (Quiet.ofExcept _).reads.bind_careful fun statement => ?_
    exact (careful_submit m e'.target _ _).bind_pure fun _ => true

/-- An uninstall that fails has changed no page. -/
theorem careful_uninstallUnlocked (m : Manager) (e : Entry) : Careful (m.uninstallUnlocked e) := by
  refine (reads_fetch m e.target).bind_careful fun page => ?_
  refine (Quiet.notes _).reads.bind_careful fun _ => ?_
  refine (Quiet.ofExcept _).reads.bind_careful fun removal => ?_
  split
  · exact (Quiet.notes _).reads.bind_careful fun _ => careful_commit m e.target _ _ _
  · exact (Quiet.pure ()).reads.bind_careful fun _ => careful_commit m e.target _ _ _

/-- Looking up the documentation of several entries. -/
theorem quiet_annotateAll (m : Manager) (parsed : List (Nat × Entry)) : Quiet (Routine.all (parsed.map fun p => m.annotate p.2)) := by
  refine Quiet.all fun r hr => ?_
  obtain ⟨p, -, rfl⟩ := List.mem_map.mp hr
  exact quiet_annotate m p.2

/-- Putting a script back neither reads nor saves a page. -/
theorem quiet_restore (m : Manager) (e : Entry) (kept : List String) : Quiet (m.restore e kept) := by
  refine (Quiet.notes _).bind fun _ => ?_
  split
  · refine (quiet_annotate m _).bind fun e' => ?_
    exact (Quiet.ofExcept _).bind fun statement => Quiet.pure _
  · exact Quiet.pure kept

end Manager

/-- An operation that fails has changed no page. -/
theorem Operation.careful (m : Manager) (target : String) (op : Operation) : Routine.Careful (op.routine m target) := by
  cases op with
  | install e => exact Manager.careful_holding (Manager.careful_installUnlocked m e)
  | uninstall e => exact Manager.careful_holding (Manager.careful_uninstallUnlocked m e)
  | setDisabled e disabled =>
    refine Manager.careful_holding ((Manager.reads_fetch m e.target).bind_careful fun page => ?_)
    refine (Routine.Quiet.notes _).reads.bind_careful fun _ => ?_
    exact (Routine.Quiet.ofExcept _).reads.bind_careful fun new => Manager.careful_commit m e.target _ _ _
  | normalize =>
    refine Manager.careful_holding ((Manager.reads_fetch m target).bind_careful fun page => ?_)
    refine (Routine.Quiet.notes _).reads.bind_careful fun _ => ?_
    refine (Manager.quiet_annotateAll m _).reads.bind_careful fun annotated => ?_
    exact (Routine.Quiet.ofExcept _).reads.bind_careful fun statements => Manager.careful_commit m target _ _ _
  | capture e name =>
    refine Manager.careful_holding ((Manager.reads_fetch m e.target).bind_careful fun page => ?_)
    refine (Routine.Quiet.notes _).reads.bind_careful fun _ => ?_
    exact (Routine.Quiet.ofExcept _).reads.bind_careful fun new => Manager.careful_commit m e.target _ _ _
  | decapture e =>
    refine Manager.careful_holding ((Manager.reads_fetch m e.target).bind_careful fun page => ?_)
    refine (Routine.Quiet.notes _).reads.bind_careful fun _ => ?_
    refine (Routine.Quiet.ofExcept _).reads.bind_careful fun release => ?_
    refine (Routine.Quiet.notes _).reads.bind_careful fun _ => ?_
    exact (Manager.quiet_restore m e release.kept).reads.bind_careful fun restored => Manager.careful_commit m e.target _ _ _

namespace Manager

open Routine

variable {m : Manager} {e : Entry} {env : Surroundings} {s t : Session} {b : Bool}

/-! ## Successes -/

/-- A page is shown by the services: sessions with the same services show the same one. -/
theorem pageText_of_service (h : t.service = s.service) (target : String) : m.pageText t target = m.pageText s target := by
  rw [pageText, Session.text, h, pageText, Session.text]

/-- Whether a page can be saved is a matter of the services. -/
theorem held_of_service {site : Site} {title : String} (h : t.service = s.service) (held : s.Held site title) :
    t.Held site title := by
  rw [Session.Held, h]
  exact held

/-- After the page of a target has been fetched, and with only quiet steps since, lines that are committed become that page. -/
theorem commit_after {target summary : String} {page new : List String} {u : Session}
    (hpage : page = m.pageLines s target) (htext : u.text = s.text)
    (held : u.Held (m.siteOf target) (m.settings.targetTitle target))
    (h : u.run env (m.commit target summary page new) = (.ok b, t)) :
    m.pageText t target = unlines new ∧ (b = true ↔ m.pageText s target ≠ unlines new) := by
  have hu : m.pageText u target = m.pageText s target := pageText_of_text htext target
  have hlines : page = m.pageLines u target := by rw [hpage, pageLines, ← hu, pageLines]
  rw [hlines] at h
  have hcommit := commit_ok held h
  rwa [hu] at hcommit

/-- What pages show is a matter of the services. -/
theorem text_of_service (h : t.service = s.service) : t.text = s.text := by
  funext site title
  rw [Session.text, h, Session.text]

/-- Installing adds a statement unless the page loads the script already. -/
theorem install_ok (h : s.run env (m.install e) = (.ok b, t)) :
    Page.isInstalled (m.pageLines s e.target) e m.settings = .ok (!b) ∧
      (b = false → m.pageText t e.target = m.pageText s e.target) ∧
      (b = true → ∃ e' statement, Annotated e e' ∧ e'.statement m.settings = .ok statement ∧
        m.pageText t e.target = (Page.install (m.pageLines s e.target) statement).apply (m.pageText s e.target)) := by
  rw [install, run_locked] at h
  obtain ⟨page, u, hfetch, h⟩ := Session.run_bind_ok h
  obtain ⟨hpage, htext, held⟩ := fetch_ok hfetch
  obtain ⟨found, u₁, hfound, hu₁, h⟩ := Session.run_bind_ok_of_quiet (quiet_isInstalled m page e) h
  have hinstalled := isInstalled_ok hfound
  rw [hpage] at hinstalled
  cases found with
  | true =>
    rw [if_pos rfl] at h
    obtain ⟨_, u₂, -, hu₂, h⟩ := Session.run_bind_ok_of_quiet (quiet_say _ _) h
    obtain ⟨hb, ht⟩ := Session.run_pure_ok h
    refine ⟨by rw [hinstalled, ← hb]; rfl, fun _ => ?_, fun hb' => ?_⟩
    · rw [← ht, pageText_of_service (hu₂.trans hu₁), pageText_of_text htext]
    · rw [← hb] at hb'
      nomatch hb'
  | false =>
    rw [if_neg Bool.false_ne_true] at h
    obtain ⟨e', u₂, hannotate, hu₂, h⟩ := Session.run_bind_ok_of_quiet (quiet_annotate m e) h
    obtain ⟨statement, hstatement, h⟩ := Session.run_ofExcept_bind_ok h
    obtain ⟨_, u₃, hsubmit, h⟩ := Session.run_bind_ok h
    obtain ⟨hb, ht⟩ := Session.run_pure_ok h
    have hann := annotate_ok hannotate
    have hservice := hu₂.trans hu₁
    rw [hann.target] at hsubmit
    have happly := submit_ok (held_of_service hservice held) hsubmit
    rw [ht, pageText_of_service hservice, pageText_of_text htext, hpage] at happly
    refine ⟨by rw [hinstalled, ← hb]; rfl, fun hb' => ?_, fun _ => ?_⟩
    · rw [← hb] at hb'
      nomatch hb'
    · exact ⟨e', statement, hann, ofUrl_ok hstatement, happly⟩

/-- Uninstalling takes off the page what loads the script. -/
theorem uninstall_ok (h : s.run env (m.uninstall e) = (.ok b, t)) :
    ∃ removal, Page.removal (m.pageLines s e.target) e m.settings = .ok removal ∧
      m.pageText t e.target = unlines (removal.apply (m.pageLines s e.target) m.settings.fallbackDelay) ∧
      (b = true ↔ m.pageText s e.target ≠ unlines (removal.apply (m.pageLines s e.target) m.settings.fallbackDelay)) := by
  rw [uninstall, run_locked] at h
  obtain ⟨page, u, hfetch, h⟩ := Session.run_bind_ok h
  obtain ⟨hpage, htext, held⟩ := fetch_ok hfetch
  obtain ⟨_, u₁, -, hu₁, h⟩ := Session.run_bind_ok_of_quiet (Quiet.notes _) h
  obtain ⟨removal, hremoval, h⟩ := Session.run_ofExcept_bind_ok h
  rw [hpage] at hremoval
  have hcommit : ∃ v : Session, v.service = u₁.service ∧ v.run env (m.commit e.target
      (Summary.ofEntry e "summary-uninstall" m.settings) page (removal.apply page m.settings.fallbackDelay)) = (.ok b, t) := by
    split at h
    · obtain ⟨_, u₂, -, hu₂, h⟩ := Session.run_bind_ok_of_quiet (Quiet.notes _) h
      exact ⟨u₂, hu₂, h⟩
    · exact ⟨u₁, rfl, h⟩
  obtain ⟨v, hv, h⟩ := hcommit
  have hservice := hv.trans hu₁
  have hdone := commit_after hpage ((text_of_service hservice).trans htext) (held_of_service hservice held) h
  rw [hpage] at hdone
  exact ⟨removal, hremoval, hdone⟩

/-- Switching a script off or on switches the lines that load it. -/
theorem setDisabled_ok {disabled : Bool} (h : s.run env (m.setDisabled e disabled) = (.ok b, t)) :
    ∃ new, Page.setDisabled (m.pageLines s e.target) e disabled m.settings = .ok new ∧ m.pageText t e.target = unlines new ∧
      (b = true ↔ m.pageText s e.target ≠ unlines new) := by
  rw [setDisabled, run_locked] at h
  obtain ⟨page, u, hfetch, h⟩ := Session.run_bind_ok h
  obtain ⟨hpage, htext, held⟩ := fetch_ok hfetch
  obtain ⟨_, u₁, -, hu₁, h⟩ := Session.run_bind_ok_of_quiet (Quiet.notes _) h
  obtain ⟨new, hnew, h⟩ := Session.run_ofExcept_bind_ok h
  rw [hpage] at hnew
  exact ⟨new, hnew, commit_after hpage ((text_of_service hu₁).trans htext) (held_of_service hu₁ held) h⟩

/-- The statements of entries are theirs one by one. -/
theorem statementsOf_ok {entries : List Entry} {statements : List String} (h : m.statementsOf entries = .ok statements) :
    List.Forall₂ (fun e statement => e.statement m.settings = .ok statement) entries statements := by
  induction entries generalizing statements with
  | nil =>
    rw [← Except.ok.inj h]
    exact .nil
  | cons e entries ih =>
    rw [statementsOf, List.mapM_cons] at h
    cases hs : Failure.ofUrl (e.statement m.settings) with
    | error malformed => rw [hs] at h; cases h
    | ok statement =>
      rw [hs] at h
      cases hm : m.statementsOf entries with
      | error malformed => rw [statementsOf] at hm; rw [hm] at h; cases h
      | ok others =>
        have hrest := ih hm
        rw [statementsOf] at hm
        rw [hm] at h
        rw [← Except.ok.inj h]
        exact .cons (ofUrl_ok hs) hrest

/-- Lists that are related one by one to a list between them are related one by one. -/
theorem forall₂_comp {α β γ : Type} {R : α → β → Prop} {S : β → γ → Prop} {as : List α} {bs : List β} {cs : List γ}
    (hab : List.Forall₂ R as bs) (hbc : List.Forall₂ S bs cs) : List.Forall₂ (fun a c => ∃ b, R a b ∧ S b c) as cs := by
  induction hab generalizing cs with
  | nil =>
    cases hbc
    exact .nil
  | cons h _ ih =>
    cases hbc with
    | cons h' hrest => exact .cons ⟨_, h, h'⟩ (ih hrest)

/-- Normalizing puts, in the place of each statement outside the wrappers, the statement of the same entry. -/
theorem normalize_ok {target : String} (h : s.run env (m.normalize target) = (.ok b, t)) :
    ∃ statements, List.Forall₂ (fun (p : Nat × Entry) statement => ∃ e', Annotated p.2 e' ∧ e'.statement m.settings = .ok statement)
        (Page.plainEntries (m.pageLines s target) target) statements ∧
      m.pageText t target = unlines (Page.setLines (m.pageLines s target)
        (((Page.plainEntries (m.pageLines s target) target).map Prod.fst).zip statements)) ∧
      (b = true ↔ m.pageText s target ≠ unlines (Page.setLines (m.pageLines s target)
        (((Page.plainEntries (m.pageLines s target) target).map Prod.fst).zip statements))) := by
  rw [normalize, run_holding] at h
  obtain ⟨page, u, hfetch, h⟩ := Session.run_bind_ok h
  obtain ⟨hpage, htext, held⟩ := fetch_ok hfetch
  obtain ⟨_, u₁, -, hu₁, h⟩ := Session.run_bind_ok_of_quiet (Quiet.notes _) h
  obtain ⟨annotated, u₂, hannotated, hu₂, h⟩ := Session.run_bind_ok_of_quiet (quiet_annotateAll m _) h
  obtain ⟨statements, hstatements, h⟩ := Session.run_ofExcept_bind_ok h
  have hservice := hu₂.trans hu₁
  have hdone := commit_after hpage ((text_of_service hservice).trans htext) (held_of_service hservice held) h
  have hann : List.Forall₂ (fun (p : Nat × Entry) e' => Annotated p.2 e') (Page.plainEntries page target) annotated := by
    refine (List.forall₂_map_left_iff.mp (all_ok hannotated)).imp ?_
    rintro p e' ⟨v, v', hv⟩
    exact annotate_ok hv
  have hboth := forall₂_comp hann (statementsOf_ok hstatements)
  rw [hpage] at hdone hboth
  exact ⟨statements, hboth, hdone⟩

/-- Capturing takes what loads the script into the wrapper. -/
theorem capture_ok {name : Option String} (h : s.run env (m.capture e name) = (.ok b, t)) :
    ∃ new, Page.capture (m.pageLines s e.target) e name m.settings = .ok new ∧ m.pageText t e.target = unlines new ∧
      (b = true ↔ m.pageText s e.target ≠ unlines new) := by
  rw [capture, run_locked] at h
  obtain ⟨page, u, hfetch, h⟩ := Session.run_bind_ok h
  obtain ⟨hpage, htext, held⟩ := fetch_ok hfetch
  obtain ⟨_, u₁, -, hu₁, h⟩ := Session.run_bind_ok_of_quiet (Quiet.notes _) h
  obtain ⟨new, hnew, h⟩ := Session.run_ofExcept_bind_ok h
  rw [hpage] at hnew
  exact ⟨new, hnew, commit_after hpage ((text_of_service hu₁).trans htext) (held_of_service hu₁ held) h⟩

/-- What is restored of a page is what is kept of it, with the statement of the script if none of the kept lines loads it. -/
theorem restore_ok {kept restored : List String} (h : s.run env (m.restore e kept) = (.ok restored, t)) :
    (¬(Page.plainLines kept e m.settings fun _ => false).isEmpty ∧ restored = kept) ∨
      ((Page.plainLines kept e m.settings fun _ => false).isEmpty ∧ ∃ e' statement, Annotated (e.withDisabled false) e' ∧
        e'.statement m.settings = .ok statement ∧ restored = kept ++ [statement]) := by
  obtain ⟨_, u, -, -, h⟩ := Session.run_bind_ok_of_quiet (Quiet.notes _) h
  split at h
  · next hempty =>
    obtain ⟨e', u₁, hannotate, -, h⟩ := Session.run_bind_ok_of_quiet (quiet_annotate m _) h
    obtain ⟨statement, hstatement, h⟩ := Session.run_ofExcept_bind_ok h
    obtain ⟨hrestored, -⟩ := Session.run_pure_ok h
    exact Or.inr ⟨hempty, e', statement, annotate_ok hannotate, ofUrl_ok hstatement, hrestored.symm⟩
  · next hempty =>
    obtain ⟨hrestored, -⟩ := Session.run_pure_ok h
    exact Or.inl ⟨hempty, hrestored.symm⟩

/-- Letting a script out of its wrapper leaves the other lines, the statement of the script and the wrapper of the other items. -/
theorem decapture_ok (h : s.run env (m.decapture e) = (.ok b, t)) :
    ∃ release restored, Page.release (m.pageLines s e.target) e m.settings = .ok release ∧
      ((¬(Page.plainLines release.kept e m.settings fun _ => false).isEmpty ∧ restored = release.kept) ∨
        ((Page.plainLines release.kept e m.settings fun _ => false).isEmpty ∧ ∃ e' statement,
          Annotated (e.withDisabled false) e' ∧ e'.statement m.settings = .ok statement ∧ restored = release.kept ++ [statement])) ∧
      m.pageText t e.target = unlines (Wrapper.append restored release.items m.settings.fallbackDelay) ∧
      (b = true ↔ m.pageText s e.target ≠ unlines (Wrapper.append restored release.items m.settings.fallbackDelay)) := by
  rw [decapture, run_locked] at h
  obtain ⟨page, u, hfetch, h⟩ := Session.run_bind_ok h
  obtain ⟨hpage, htext, held⟩ := fetch_ok hfetch
  obtain ⟨_, u₁, -, hu₁, h⟩ := Session.run_bind_ok_of_quiet (Quiet.notes _) h
  obtain ⟨release, hrelease, h⟩ := Session.run_ofExcept_bind_ok h
  obtain ⟨_, u₂, -, hu₂, h⟩ := Session.run_bind_ok_of_quiet (Quiet.notes _) h
  obtain ⟨restored, u₃, hrestore, hu₃, h⟩ := Session.run_bind_ok_of_quiet (quiet_restore m e release.kept) h
  rw [hpage] at hrelease
  have hservice := hu₃.trans (hu₂.trans hu₁)
  have hdone := commit_after hpage ((text_of_service hservice).trans htext) (held_of_service hservice held) h
  exact ⟨release, restored, hrelease, restore_ok hrestore, hdone⟩

end Manager

end UserScripts
