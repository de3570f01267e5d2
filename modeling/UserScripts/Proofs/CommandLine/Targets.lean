import UserScripts.CommandLine.Program
import UserScripts.Proofs.Manager.Orderly
import UserScripts.Proofs.Session.Visited
import UserScripts.Proofs.Statement.Reparse

/-!
# The pages that a command edits

A command is a list of operations of the manager, carried out in order until one of them fails. Each operation edits no page but those
of the targets that it works on, so a command edits pages of the targets that it names. A script command names targets of the settings
only, or it ends in a usage error before its operation begins; the commands that take a list of targets take any names. Main definitions:
`Command.operations` and `Task.submitted`. Main statements: `does_execute`, which ties them to the run of the program, and
`program_edits_configured_targets_iff`.
-/

namespace UserScripts

open UserScripts.Text

variable {α β : Type}

/-! ## Edits of a routine -/

/-- The routine without its value. -/
def Routine.discard (r : Routine α) : Routine Unit :=
  r >>= fun _ => pure ()

/-- What a routine without its value may do is what the routine may do. -/
theorem Routine.Orderly.discard {m : Manager} {within read : List String} {post : List String → α → Prop} {r : Routine α}
    (h : Orderly m within post read r) : Orderly m within (fun _ _ => True) read r.discard :=
  h.bind fun _ _ _ => .done trivial

/-- Whether an edit on a site is one of the page of a target. -/
def Manager.IsEditOf (m : Manager) (target : String) (p : Site × Edit) : Prop :=
  p.1 = m.siteOf target ∧ p.2.title = m.settings.targetTitle target

instance (m : Manager) (target : String) (p : Site × Edit) : Decidable (m.IsEditOf target p) :=
  inferInstanceAs (Decidable (_ ∧ _))

/-- An orderly routine submits edits of the pages of its targets only. -/
theorem Routine.Orderly.submissions {m : Manager} {within read : List String} {post : List String → α → Prop} {r : Routine α}
    (h : Orderly m within post read r) (hread : ∀ target ∈ read, target ∈ within) (env : Surroundings) (s : Session) :
    ∀ p ∈ s.submissions env r, ∃ target ∈ within, m.IsEditOf target p := by
  induction h generalizing s with
  | done => exact fun p hp => nomatch hp
  | failed => exact fun p hp => nomatch hp
  | @fetch read target next rest mem _ remembered _ ihRefused ihFetched =>
    rw [Session.submissions_ask]
    cases hanswer : (s.answer env (.read (m.siteOf target) (m.settings.targetTitle target))).1 with
    | error failure => exact ihRefused failure hread _
    | ok text =>
      rw [remembered]
      exact ihFetched text (List.forall_mem_cons.mpr ⟨mem, hread⟩) _
  | @submit read target edit next rest mem title forgotten _ ih =>
    rw [Session.submissions_ask, forgotten, Session.submissions_ask]
    refine List.forall_mem_cons.mpr ⟨⟨target, hread target mem, rfl, title⟩, ih _ hread _⟩
  | @quiet read q next hq hr _ ih =>
    rw [Session.submissions_ask]
    cases q <;> first | exact ih _ hread _ | nomatch hq

namespace Session

variable {env : Surroundings} {s : Session}

/-- A routine without its value runs as the routine does, and its value is dropped. -/
theorem run_discard (env : Surroundings) (s : Session) (r : Routine α) :
    s.run env r.discard = ((s.run env r).1.map fun _ => (), (s.run env r).2) := by
  rw [Routine.discard, run_bind]
  cases s.run env r with
  | mk outcome t => cases outcome <;> rfl

/-! ## Pages of the wikis -/

/-- The pages of the wiki that serves a site. -/
def pagesOn (s : Session) (site : Site) : Keyed String String :=
  (s.service site).wiki.pages

/-- A session that has not changed has the same pages on every site. -/
theorem Unchanged.pagesOn {t : Session} (h : s.Unchanged t) (site : Site) : t.pagesOn site = s.pagesOn site :=
  (h.service site).pages

/-- Saving an edit changes its own page on its own wiki at most. -/
theorem get?_pagesOn_save {site other : Site} {edit : Edit} {page : String} (h : s.Elsewhere site edit.title other page)
    (env : Surroundings) :
    ((s.save env site edit).2.pagesOn other).get? page = (s.pagesOn other).get? page ∧
      ((s.save env site edit).2.central = none ↔ s.central = none) := by
  have hpages : ((s.withService site ((s.service site).save edit)).pagesOn other).get? page = (s.pagesOn other).get? page := by
    rw [pagesOn, service_withService_eq]
    split
    · next hshared =>
      have hpage : edit.title ≠ page := (h.resolve_right fun hother => hshared.elim hother.1 hother.2).symm
      rw [pagesOn, service_eq_of_shared hshared]
      cases hdraft : (s.service site).draft with
      | none => simp [Service.save, hdraft, Wiki.save, Keyed.get?_put, hpage]
      | some draft => simp [Service.save, hdraft]
    · rfl
  have hcentral : (s.withService site ((s.service site).save edit)).central = none ↔ s.central = none := by
    rw [← Option.isNone_iff_eq_none, ← Option.isNone_iff_eq_none, ← Option.not_isSome, ← Option.not_isSome,
      isSome_central_withService]
  unfold save
  simp only [call]
  split
  · cases env.outage s.calls (.save edit.title) with
    | none => exact ⟨hpages, hcentral⟩
    | some message => exact ⟨rfl, Iff.rfl⟩
  · exact ⟨hpages, hcentral⟩

/-- A page of which a routine submits no edit is left as it is. -/
theorem get?_pagesOn_run {r : Routine α} {other : Site} {page : String}
    (h : ∀ p ∈ s.submissions env r, s.Elsewhere p.1 p.2.title other page) :
    ((s.run env r).2.pagesOn other).get? page = (s.pagesOn other).get? page ∧
      ((s.run env r).2.central = none ↔ s.central = none) := by
  induction r generalizing s with
  | done outcome => exact ⟨rfl, Iff.rfl⟩
  | ask q next ih =>
    rw [submissions_ask] at h
    rw [run_ask]
    have hanswer : ((s.answer env q).2.pagesOn other).get? page = (s.pagesOn other).get? page ∧
        ((s.answer env q).2.central = none ↔ s.central = none) := by
      cases q with
      | read site title =>
        have hread := unchanged_read env s site title
        exact ⟨congrArg (Keyed.get? · page) (hread.pagesOn other), hread.central_eq_none⟩
      | save site edit => exact get?_pagesOn_save (h _ (List.mem_append_left _ List.mem_cons_self)) env
      | _ => exact ⟨rfl, Iff.rfl⟩
    have hrest : ∀ p ∈ (s.answer env q).2.submissions env (next (s.answer env q).1),
        (s.answer env q).2.Elsewhere p.1 p.2.title other page := fun p hp =>
      (h p (List.mem_append_right _ hp)).imp_right (And.imp_right (mt hanswer.2.mp))
    exact ⟨(ih _ hrest).1.trans hanswer.1, (ih _ hrest).2.trans hanswer.2⟩

end Session

namespace CommandLine

/-! ## The shell -/

namespace Shell

/-- Work in two parts: the second part starts at the desk that the first one leaves, unless that one has failed. -/
theorem run_bind (x : Shell α) (f : α → Shell β) (d : Desk) :
    (x >>= f).run.run d = match x.run.run d with
      | (.ok a, d') => (f a).run.run d'
      | (.error finish, d') => (.error finish, d') := by
  rw [ExceptT.run_bind, StateT.run_bind]
  show (match x.run.run d with | (a, s) => _) = _
  rcases x.run.run d with ⟨_ | _, _⟩ <;> rfl

/-- Looking at the desk changes nothing. -/
theorem run_get (d : Desk) : (get : Shell Desk).run.run d = (.ok d, d) := rfl

/-- A new desk takes the place of the old one. -/
theorem run_set (d d' : Desk) : (set d' : Shell PUnit).run.run d = (.ok ⟨⟩, d') := rfl

/-- A value that is no usage error is passed on. -/
theorem run_orUsage_ok (a : α) (d : Desk) : (orUsage (.ok a)).run.run d = (.ok a, d) := rfl

/-- A usage error ends the work and leaves the desk as it is. -/
theorem run_orUsage_error (e : UsageError) (d : Desk) : (orUsage (.error e : Except UsageError α)).run.run d = (.error (.usage e), d) := rfl

end Shell

/-- A failure of an operation ends the run, in no usage error. -/
theorem run_abort (failure : Failure) (d : Desk) :
    ∃ finish d', (abort failure : Shell α).run.run d = (.error finish, d') ∧ d'.session = d.session ∧ ∀ e, finish ≠ .usage e := by
  unfold abort
  cases failure.kind? with
  | none => exact ⟨_, _, rfl, rfl, fun _ => nofun⟩
  | some kind => exact ⟨_, _, rfl, rfl, fun _ => nofun⟩

/-- The desk after an operation that has not failed. -/
def Desk.after (d : Desk) (session : Session) : Desk :=
  if d.dryRun then
    { d with output := d.output ++ editsOutput (session.services.flatMap Service.edits), session := clearDrafts session }
  else { d with session }

/-- A routine that is performed runs in the session of the desk, and the desk is as `Desk.after` says if it has not failed. -/
theorem run_perform (r : Routine α) (d : Desk) :
    (perform r).run.run d = match d.session.run d.surroundings r with
      | (.ok a, session) => (.ok a, d.after session)
      | (.error failure, session) => (abort failure).run.run { d with session } := by
  unfold perform
  simp only [Shell.run_bind, Shell.run_get, Shell.run_set]
  cases d.session.run d.surroundings r with
  | mk outcome session =>
    cases outcome with
    | error failure => rfl
    | ok a => cases hdry : d.dryRun <;> simp [printEdits, Desk.after, hdry] <;> rfl

/-! ## Operations of a command -/

/-- The edits that are submitted when operations are carried out in order, and the session after them. The first failure ends the
run. A dry run empties the drafts after each operation. -/
def carryOut (env : Surroundings) (dryRun : Bool) (s : Session) : List (Routine Unit) → List (Site × Edit) × Session
  | [] => ([], s)
  | r :: rest =>
    match s.run env r with
    | (.ok _, t) =>
      let (edits, u) := carryOut env dryRun (if dryRun then clearDrafts t else t) rest
      (s.submissions env r ++ edits, u)
    | (.error _, t) => (s.submissions env r, t)

/-- Work at a desk that is carrying out some operations. What else it does touches no session, and it ends in no usage error. -/
structure Does (x : Shell Unit) (d : Desk) (operations : List (Routine Unit)) : Prop where
  session : (x.run.run d).2.session = (carryOut d.surroundings d.dryRun d.session operations).2
  finish : ∀ e, (x.run.run d).1 ≠ .error (.usage e)

/-- Performing a routine and then doing more carries out the routine first and then what the rest carries out. -/
theorem does_perform {r : Routine α} {next : α → Shell Unit} {d : Desk} {rest : List (Routine Unit)}
    (h : ∀ a t, Does (next a) (d.after t) rest) : Does (perform r >>= next) d (r.discard :: rest) := by
  have hrun := Shell.run_bind (perform r) next d
  have hdiscard := Session.run_discard d.surroundings d.session r
  rw [run_perform] at hrun
  cases hr : d.session.run d.surroundings r with
  | mk outcome t =>
    rw [hr] at hrun hdiscard
    cases outcome with
    | ok a =>
      replace hrun : (perform r >>= next).run.run d = (next a).run.run (d.after t) := hrun
      refine ⟨?_, fun e => hrun ▸ (h a t).finish e⟩
      rw [hrun, (h a t).session, carryOut, hdiscard]
      cases hdry : d.dryRun <;> simp [Desk.after, hdry, Except.map]
    | error failure =>
      obtain ⟨finish, d', habort, hsession, hfinish⟩ := run_abort (α := α) failure { d with session := t }
      dsimp only at hrun
      rw [habort] at hrun
      refine ⟨?_, fun e h => hfinish e (Except.error.inj (hrun ▸ h))⟩
      rw [hrun, hsession, carryOut, hdiscard]
      rfl

/-- A report carries out no operation. -/
theorem does_report (changed : Bool) (message : String) (d : Desk) : Does (report changed message) d [] :=
  ⟨rfl, fun _ h => by cases h⟩

/-- Normalizing a list of targets carries out one normalization for each of them, in order. -/
theorem does_normalizeTargets (m : Manager) (targets : List String) (d : Desk) :
    Does (normalizeTargets m targets) d (targets.map fun target => (m.normalize target).discard) := by
  induction targets generalizing d with
  | nil => exact ⟨rfl, fun _ h => by cases h⟩
  | cons target rest ih =>
    refine does_perform fun changed t => ?_
    exact ⟨(ih _).session, (ih _).finish⟩

/-- The operations of a command, in order, unless the script or the target that it names is refused. -/
def Command.operations (m : Manager) : Command → Except UsageError (List (Routine Unit))
  | .list targets => .ok [(loadListing m targets).discard]
  | .install script => (script.entry m.settings).map fun e => [(m.install e).discard]
  | .uninstall script => (script.entry m.settings).map fun e => [(m.uninstall e).discard]
  | .enable script => (script.entry m.settings).map fun e => [(m.setDisabled e false).discard]
  | .disable script => (script.entry m.settings).map fun e => [(m.setDisabled e true).discard]
  | .move script destination =>
    (script.entry m.settings).bind fun e =>
      if m.settings.targets.contains destination then .ok [(m.move e destination).discard]
      else .error (.invalid ("Unknown target '" ++ destination ++ "'"))
  | .normalize targets =>
    .ok ((if targets.isEmpty then m.settings.targets else targets).map fun target => (m.normalize target).discard)
  | .capture script name => (script.entry m.settings).map fun e => [(m.capture e name).discard]
  | .decapture script => (script.entry m.settings).map fun e => [(m.decapture e).discard]

/-- Work on a script carries out one operation on its entry, or ends in a usage error if the script is refused. -/
theorem does_onScript (s : Settings) (script : ScriptName) (operation : Entry → Routine Bool) (message : Entry → String) (d : Desk) :
    match (script.entry s).map fun e => [(operation e).discard] with
    | .error e => (onScript s script operation message).run.run d = (.error (.usage e), d)
    | .ok operations => Does (onScript s script operation message) d operations := by
  unfold onScript
  cases script.entry s with
  | error e =>
    dsimp only [Except.map]
    rw [Shell.run_bind, Shell.run_orUsage_error]
  | ok e =>
    have hdoes : Does (perform (operation e) >>= fun changed => report changed (message e)) d [(operation e).discard] :=
      does_perform fun changed t => does_report changed (message e) _
    exact ⟨hdoes.session, hdoes.finish⟩

/-- A command carries out its operations, or it ends in a usage error before it does anything. -/
theorem does_execute (m : Manager) (c : Command) (d : Desk) :
    match c.operations m with
    | .error e => (execute m c).run.run d = (.error (.usage e), d)
    | .ok operations => Does (execute m c) d operations := by
  cases c with
  | list targets => exact does_perform fun _ _ => ⟨rfl, fun _ h => by cases h⟩
  | move script destination =>
    rw [Command.operations, execute]
    cases script.entry m.settings with
    | error e =>
      dsimp only [Except.bind]
      rw [Shell.run_bind, Shell.run_orUsage_error]
    | ok e =>
      dsimp only [Except.bind]
      cases m.settings.targets.contains destination with
      | false => rfl
      | true =>
        have hdoes : Does (perform (m.move e destination) >>= fun moved =>
            report moved (nameOn "Moved" "from" e ++ " to " ++ destination)) d [(m.move e destination).discard] :=
          does_perform fun moved t => does_report moved _ _
        exact ⟨hdoes.session, hdoes.finish⟩
  | normalize targets => exact does_normalizeTargets m _ d
  | install script => exact does_onScript m.settings script m.install _ d
  | uninstall script => exact does_onScript m.settings script m.uninstall _ d
  | enable script => exact does_onScript m.settings script (m.setDisabled · false) _ d
  | disable script => exact does_onScript m.settings script (m.setDisabled · true) _ d
  | capture script name => exact does_onScript m.settings script (m.capture · name) _ d
  | decapture script => exact does_onScript m.settings script m.decapture _ d

/-! ## The targets of a command -/

/-- The target that a script command names, or the one of the settings if it names none. -/
def ScriptName.named (n : ScriptName) (s : Settings) : String :=
  (given n.target).getD s.defaultTarget

/-- The targets that a command names. -/
def Command.named (s : Settings) : Command → List String
  | .list targets => targets
  | .normalize targets => targets
  | .move script destination => [script.named s, destination]
  | .install script | .uninstall script | .enable script | .disable script | .capture script _ | .decapture script => [script.named s]

/-- The targets that a command may work on: those that a list of targets names, and otherwise those of the settings. -/
def Command.scope (s : Settings) : Command → List String
  | .list targets => if targets.isEmpty then s.targets else targets
  | .normalize targets => if targets.isEmpty then s.targets else targets
  | _ => s.targets

/-- A script that is not refused is one of a target of the settings. -/
theorem ScriptName.target_of_entry {n : ScriptName} {s : Settings} {e : Entry} (h : n.entry s = .ok e) :
    e.target = n.named s ∧ n.named s ∈ s.targets := by
  unfold entry at h
  dsimp only at h
  split at h
  · cases h
  · next hknown =>
    have hmem : n.named s ∈ s.targets := by simpa [named] using hknown
    refine ⟨?_, hmem⟩
    split at h
    · split at h
      · cases h
      · rw [← Except.ok.inj h]
        rfl
    · split at h
      · cases h
      · rw [← Except.ok.inj h]
        exact (Entry.target_ofAddress ..).1
    · cases h

/-- A script command that is not refused is one operation on one entry, whose target is one of the settings. -/
theorem operations_of_script {script : ScriptName} {s : Settings} {operation : Entry → Routine Unit} {operations : List (Routine Unit)}
    (h : (script.entry s).map (fun e => [operation e]) = .ok operations) :
    ∃ e, operations = [operation e] ∧ e.target = script.named s ∧ script.named s ∈ s.targets := by
  cases hentry : script.entry s with
  | error e => rw [hentry] at h; nomatch h
  | ok e =>
    rw [hentry] at h
    exact ⟨e, (Except.ok.inj h).symm, ScriptName.target_of_entry hentry⟩

/-- A listing reads only the pages of the targets that it is asked for, or of all targets of the settings. -/
theorem orderly_loadListing {m : Manager} {within read : List String} {targets : List String}
    (h : ∀ target ∈ if targets.isEmpty then m.settings.targets else targets, target ∈ within) :
    Routine.Orderly m within (fun _ _ => True) read (loadListing m targets) := by
  have hitems (names : List String) (read : List String) (hnames : ∀ target ∈ names, target ∈ within) :
      Routine.Orderly m within (fun _ _ => True) read (loadListing.inOrder m names) := by
    induction names generalizing read with
    | nil => exact .done trivial
    | cons target rest ih =>
      refine (Manager.orderly_listCaptured (hnames target List.mem_cons_self)).bind fun read _ _ => ?_
      exact (ih read fun t ht => hnames t (List.mem_cons_of_mem _ ht)).bind fun _ _ _ => .done trivial
  refine (Manager.orderly_loadAll h).bind fun read loaded hloaded => ?_
  refine (hitems (loaded.map Prod.fst) read fun target htarget => ?_).bind fun _ _ _ => .done trivial
  obtain ⟨p, hp, rfl⟩ := List.mem_map.mp htarget
  exact hloaded p hp

/-- The operations of a command deal with the pages of its targets only. -/
theorem orderly_operations {m : Manager} {c : Command} {operations : List (Routine Unit)} (h : c.operations m = .ok operations) :
    ∀ r ∈ operations, Routine.Orderly m (c.scope m.settings) (fun _ _ => True) [] r := by
  have hscript {script : ScriptName} {operation : Entry → Routine Unit} {within : List String}
      (hop : ∀ e, e.target ∈ within → Routine.Orderly m within (fun _ _ => True) [] (operation e)) (hwithin : within = m.settings.targets)
      (h : (script.entry m.settings).map (fun e => [operation e]) = .ok operations) :
      ∀ r ∈ operations, Routine.Orderly m within (fun _ _ => True) [] r := by
    obtain ⟨e, rfl, htarget, hmem⟩ := operations_of_script h
    exact List.forall_mem_singleton.mpr (hop e (by rw [htarget, hwithin]; exact hmem))
  cases c with
  | list targets =>
    cases h
    exact List.forall_mem_singleton.mpr (orderly_loadListing fun _ h => h).discard
  | normalize targets =>
    cases h
    intro r hr
    obtain ⟨target, htarget, rfl⟩ := List.mem_map.mp hr
    exact (Manager.orderly_normalize htarget).discard
  | move script destination =>
    rw [Command.operations] at h
    cases hentry : script.entry m.settings with
    | error e => rw [hentry] at h; nomatch h
    | ok e =>
      rw [hentry] at h
      replace h : (if m.settings.targets.contains destination then .ok [(m.move e destination).discard]
        else .error (.invalid ("Unknown target '" ++ destination ++ "'")) : Except UsageError _) = .ok operations := h
      split at h
      · next hknown =>
        cases h
        obtain ⟨htarget, hmem⟩ := ScriptName.target_of_entry hentry
        have hsource : e.target ∈ m.settings.targets := htarget ▸ hmem
        exact List.forall_mem_singleton.mpr (Manager.orderly_move hsource (by simpa using hknown)).discard
      · nomatch h
  | install script => exact hscript (fun e he => (Manager.orderly_install he).discard) rfl h
  | uninstall script => exact hscript (fun e he => (Manager.orderly_uninstall he).discard) rfl h
  | enable script => exact hscript (fun e he => (Manager.orderly_setDisabled he).discard) rfl h
  | disable script => exact hscript (fun e he => (Manager.orderly_setDisabled he).discard) rfl h
  | capture script name => exact hscript (fun e he => (Manager.orderly_capture he).discard) rfl h
  | decapture script => exact hscript (fun e he => (Manager.orderly_decapture he).discard) rfl h

/-- A command that is not refused works on the targets that it names. -/
theorem named_mem_scope {m : Manager} {c : Command} {operations : List (Routine Unit)} (h : c.operations m = .ok operations)
    {target : String} (hnamed : target ∈ c.named m.settings) : target ∈ c.scope m.settings := by
  have hlist (targets : List String) (htarget : target ∈ targets) :
      target ∈ if targets.isEmpty then m.settings.targets else targets := by
    rwa [if_neg fun hempty => List.ne_nil_of_mem htarget (List.isEmpty_iff.mp hempty)]
  have hscript {script : ScriptName} {operation : Entry → Routine Unit} (hnamed : target ∈ [script.named m.settings])
      (h : (script.entry m.settings).map (fun e => [operation e]) = .ok operations) : target ∈ m.settings.targets := by
    obtain ⟨e, -, -, hmem⟩ := operations_of_script h
    rwa [List.mem_singleton.mp hnamed]
  cases c with
  | list targets => exact hlist targets hnamed
  | normalize targets => exact hlist targets hnamed
  | move script destination =>
    rw [Command.operations] at h
    cases hentry : script.entry m.settings with
    | error e => rw [hentry] at h; nomatch h
    | ok e =>
      rw [hentry] at h
      replace h : (if m.settings.targets.contains destination then .ok [(m.move e destination).discard]
        else .error (.invalid ("Unknown target '" ++ destination ++ "'")) : Except UsageError _) = .ok operations := h
      split at h
      · next hknown =>
        obtain rfl | hdestination := List.mem_cons.mp hnamed
        · exact (ScriptName.target_of_entry hentry).2
        · rw [List.mem_singleton.mp hdestination]
          exact List.contains_iff_mem.mp hknown
      · nomatch h
  | install script => exact hscript hnamed h
  | uninstall script => exact hscript hnamed h
  | enable script => exact hscript hnamed h
  | disable script => exact hscript hnamed h
  | capture script name => exact hscript hnamed h
  | decapture script => exact hscript hnamed h

/-- A command that works on a target which the settings do not have takes a list of targets, and is never refused. -/
theorem operations_of_unknown {m : Manager} {c : Command} {target : String} (hscope : target ∈ c.scope m.settings)
    (hunknown : target ∉ m.settings.targets) : target ∈ c.named m.settings ∧ ∃ operations, c.operations m = .ok operations := by
  have hlist (targets : List String) (hscope : target ∈ if targets.isEmpty then m.settings.targets else targets) : target ∈ targets := by
    split at hscope
    · exact absurd hscope hunknown
    · exact hscope
  cases c with
  | list targets => exact ⟨hlist targets hscope, _, rfl⟩
  | normalize targets => exact ⟨hlist targets hscope, _, rfl⟩
  | _ => exact absurd hscope hunknown

/-! ## The run of the program -/

/-- What the arguments of a run ask for: its options, the settings under which it works, and its command. -/
structure Task where
  options : Options
  settings : Settings
  command : Command
deriving DecidableEq

namespace Task

/-- The task of a run, unless it ends before its command is known. -/
def ofArguments (w : World) (env : Environment) (arguments : List String) : Except Finish Task :=
  match takeApart programKinds false arguments with
  | .error e => .error (.usage e)
  | .ok a =>
    match a.positional with
    | [] => .error (.usage .missingCommand)
    | word :: rest =>
      match CommandName.ofWord? word with
      | none => .error (.usage (.noSuchCommand word))
      | some name =>
        match programSettings (startLog w (Options.ofArguments a)).1 env (Options.ofArguments a) with
        | .error finish => .error finish
        | .ok s =>
          match Command.ofArguments name rest with
          | .error e => .error (.usage e)
          | .ok c => .ok ⟨Options.ofArguments a, s, c⟩

/-- The manager that carries out a task. -/
def manager (task : Task) : Manager :=
  { settings := task.settings, linksDocs := task.options.resolveDocs }

/-- The edits that are submitted and the session that is left when a task is carried out. -/
def carriedOut (task : Task) (w : World) (surroundings : Surroundings) : List (Site × Edit) × Session :=
  carryOut surroundings task.options.dryRun (w.session task.settings task.options.dryRun)
    ((task.command.operations task.manager).toOption.getD [])

/-- The edits that are submitted when a task is carried out, whether they are saved, fail or are only recorded in a dry run. -/
def submitted (task : Task) (w : World) (surroundings : Surroundings) : List (Site × Edit) :=
  (task.carriedOut w surroundings).1

end Task

/-- A note leaves the wikis as they are. -/
theorem wikis_addNote (w : World) (n : Note) : (w.addNote n).wikis = w.wikis := by
  have hfold (paths : List Path) (w : World) : (paths.foldl (fun w path => w.appendFile path (n.line ++ "\n")) w).wikis = w.wikis := by
    induction paths generalizing w with
    | nil => rfl
    | cons path rest ih => exact (ih _).trans rfl
  exact hfold w.logs w

/-- Notes leave the wikis as they are. -/
theorem wikis_addNotes (w : World) (notes : List Note) : (w.addNotes notes).wikis = w.wikis := by
  induction notes generalizing w with
  | nil => rfl
  | cons n rest ih => exact (ih _).trans (wikis_addNote w n)

/-- Starting the log leaves the wikis as they are. -/
theorem wikis_startLog (w : World) (o : Options) : (startLog w o).1.wikis = w.wikis := by
  unfold startLog
  split <;> rfl

/-- Worlds with the same wikis have the same pages on every host. -/
theorem pagesOf_of_wikis {w w' : World} (h : w'.wikis = w.wikis) (host : String) : w'.pagesOf host = w.pagesOf host := by
  rw [World.pagesOf, World.pagesOf, h]

/-- Worlds with the same wikis start a run in the same session. -/
theorem session_of_wikis {w w' : World} (h : w'.wikis = w.wikis) (s : Settings) (dryRun : Bool) :
    w'.session s dryRun = w.session s dryRun := by
  simp only [World.session, pagesOf_of_wikis h]

/-- The host of a site. -/
def hostOf (s : Settings) : Site → String
  | .home => s.serverName
  | .central => World.centralHost s

/-- The session of a run starts with the pages of the world. -/
theorem pagesOn_session (w : World) (s : Settings) (dryRun : Bool) (site : Site) :
    (w.session s dryRun).pagesOn site = w.pagesOf (hostOf s site) := by
  cases site with
  | home => rfl
  | central =>
    have hcentral : (w.session s dryRun).central =
        if !dryRun && World.centralHost s = s.serverName then none
        else some { wiki := { pages := w.pagesOf (World.centralHost s) }, draft := if dryRun then some {} else none } := rfl
    rw [Session.pagesOn, Session.service, hcentral, hostOf]
    split
    · next h =>
      have hhost : World.centralHost s = s.serverName := of_decide_eq_true ((Bool.and_eq_true _ _).mp h).2
      rw [hhost]
      rfl
    · rfl

/-- Without a central service both sites have one host. -/
theorem hostOf_of_central {w : World} {s : Settings} {dryRun : Bool} (h : (w.session s dryRun).central = none) (site other : Site) :
    hostOf s other = hostOf s site := by
  have hhost : World.centralHost s = s.serverName := by
    by_contra hne
    simp [World.session, hne] at h
  cases site <;> cases other <;> first | rfl | exact hhost | exact hhost.symm

/-- After a session a page of the world is as it was if it is so on all sites of its host. -/
theorem get?_pagesOf_afterSession {w : World} {s : Settings} (dryRun : Bool) {t : Session} {host page : String}
    (hpages : ∀ site, hostOf s site = host → (t.pagesOn site).get? page = ((w.session s dryRun).pagesOn site).get? page) :
    ((w.afterSession s t).pagesOf host).get? page = (w.pagesOf host).get? page := by
  have hsite (site : Site) (h : hostOf s site = host) : (t.pagesOn site).get? page = (w.pagesOf host).get? page := by
    rw [hpages site h, pagesOn_session, h]
  rw [World.pagesOf, World.afterSession, wikis_addNotes]
  cases hc : t.central with
  | none =>
    dsimp only
    rw [Keyed.get?_put]
    split
    · next h => exact hsite .home h
    · rfl
  | some central =>
    dsimp only
    rw [Keyed.get?_put, Keyed.get?_put]
    split
    · next h =>
      have := hsite .central h
      rwa [Session.pagesOn, Session.service, hc] at this
    · split
      · next h => exact hsite .home h
      · rfl

/-- Emptying the drafts leaves the pages as they are. -/
theorem pagesOn_clearDrafts (s : Session) (site : Site) : (clearDrafts s).pagesOn site = s.pagesOn site := by
  cases site with
  | home => rfl
  | central => cases hc : s.central <;> simp [Session.pagesOn, Session.service, clearDrafts, clearDraft, hc]

/-- Emptying the drafts neither opens nor closes the central wiki. -/
theorem central_clearDrafts (s : Session) : (clearDrafts s).central = none ↔ s.central = none := by
  simp [clearDrafts]

/-- Operations leave a page of which they submit no edit as it is. -/
theorem get?_pagesOn_carryOut {env : Surroundings} {dryRun : Bool} {s : Session} {operations : List (Routine Unit)} {other : Site}
    {page : String} (h : ∀ p ∈ (carryOut env dryRun s operations).1, s.Elsewhere p.1 p.2.title other page) :
    ((carryOut env dryRun s operations).2.pagesOn other).get? page = (s.pagesOn other).get? page ∧
      ((carryOut env dryRun s operations).2.central = none ↔ s.central = none) := by
  induction operations generalizing s with
  | nil => exact ⟨rfl, Iff.rfl⟩
  | cons r rest ih =>
    have hfirst (hr : ∀ p ∈ s.submissions env r, s.Elsewhere p.1 p.2.title other page) := Session.get?_pagesOn_run hr
    rw [carryOut] at h ⊢
    cases hrun : s.run env r with
    | mk outcome t =>
      rw [hrun] at h hfirst
      cases outcome with
      | error failure => exact hfirst h
      | ok a =>
        dsimp only at h hfirst ⊢
        obtain ⟨hpages, hcentral⟩ := hfirst fun p hp => h p (List.mem_append_left _ hp)
        have hnext : ((if dryRun = true then clearDrafts t else t).pagesOn other) = t.pagesOn other ∧
            ((if dryRun = true then clearDrafts t else t).central = none ↔ t.central = none) := by
          split
          · exact ⟨pagesOn_clearDrafts t other, central_clearDrafts t⟩
          · exact ⟨rfl, Iff.rfl⟩
        obtain ⟨hrest, hrestCentral⟩ := ih fun p hp =>
          (h p (List.mem_append_right _ hp)).imp_right (And.imp_right (mt (hnext.2.trans hcentral).mp))
        exact ⟨by rw [hrest, hnext.1, hpages], hrestCentral.trans (hnext.2.trans hcentral)⟩

/-- The work of a run on a command. -/
def commandWork (m : Manager) (name : CommandName) (arguments : List String) : Shell Unit := do
  execute m (← Shell.orUsage (Command.ofArguments name arguments))

section

variable (w : World) (surroundings : Surroundings) (env : Environment) (o : Options) (s : Settings) (printed : List Output)
  {name : CommandName} {arguments : List String}

/-- A command that is run is its work at a desk with the session of the world, and its finish is that of the work. -/
theorem runCommand_eq (name : CommandName) (arguments : List String) :
    ∃ desk : Desk, desk.surroundings = surroundings ∧ desk.dryRun = o.dryRun ∧ desk.session = w.session s o.dryRun ∧
      (runCommand w surroundings env o s printed name arguments).finish =
        (match ((commandWork { settings := s, linksDocs := o.resolveDocs } name arguments).run.run desk).1 with
          | .ok _ => .exit 0
          | .error finish => finish) ∧
      (runCommand w surroundings env o s printed name arguments).world.wikis =
        (w.afterSession s ((commandWork { settings := s, linksDocs := o.resolveDocs } name arguments).run.run desk).2.session).wikis := by
  let noted := w.addNote ⟨.program, .debug, "Managing scripts of " ++ s.userName ++ " on " ++ s.serverName⟩
  have hnoted : noted.wikis = w.wikis := wikis_addNote w _
  let desk : Desk := ⟨surroundings, { settings := s, linksDocs := o.resolveDocs }, o.dryRun, noted.session s o.dryRun, printed⟩
  refine ⟨desk, rfl, rfl, session_of_wikis hnoted s o.dryRun, rfl, ?_⟩
  show (noted.afterSession s _).wikis = (w.afterSession s _).wikis
  rw [World.afterSession, wikis_addNotes, World.afterSession, wikis_addNotes, hnoted]
  rfl

/-- Arguments that are no command end the run before it touches the wikis. -/
theorem runCommand_of_error {e : UsageError} (h : Command.ofArguments name arguments = .error e) :
    (runCommand w surroundings env o s printed name arguments).finish = .usage e ∧
      ∀ host page, ((runCommand w surroundings env o s printed name arguments).world.pagesOf host).get? page =
        (w.pagesOf host).get? page := by
  obtain ⟨desk, -, -, hsession, hfinish, hwikis⟩ := runCommand_eq w surroundings env o s printed name arguments
  have hwork : (commandWork { settings := s, linksDocs := o.resolveDocs } name arguments).run.run desk = (.error (.usage e), desk) := by
    rw [commandWork, h, Shell.run_bind, Shell.run_orUsage_error]
  rw [hwork] at hfinish hwikis
  refine ⟨hfinish, fun host page => ?_⟩
  rw [pagesOf_of_wikis hwikis]
  exact get?_pagesOf_afterSession o.dryRun fun site _ => by rw [hsession]

/-- A task is carried out, or it ends in a usage error. No page changes of which it submits no edit. -/
theorem runCommand_of_ok {c : Command} (h : Command.ofArguments name arguments = .ok c) :
    (match c.operations { settings := s, linksDocs := o.resolveDocs } with
      | .error e => (runCommand w surroundings env o s printed name arguments).finish = .usage e
      | .ok _ => ∀ e, (runCommand w surroundings env o s printed name arguments).finish ≠ .usage e) ∧
    ∀ host page, (∀ p ∈ (Task.mk o s c).submitted w surroundings, hostOf s p.1 = host → p.2.title ≠ page) →
      ((runCommand w surroundings env o s printed name arguments).world.pagesOf host).get? page = (w.pagesOf host).get? page := by
  obtain ⟨desk, hsurroundings, hdry, hsession, hfinish, hwikis⟩ := runCommand_eq w surroundings env o s printed name arguments
  rw [commandWork, h, Shell.run_bind, Shell.run_orUsage_ok] at hfinish hwikis
  have hexecute := does_execute { settings := s, linksDocs := o.resolveDocs } c desk
  simp only [Task.submitted, Task.carriedOut, Task.manager]
  cases hoperations : c.operations { settings := s, linksDocs := o.resolveDocs } with
  | error e =>
    rw [hoperations] at hexecute
    dsimp only at hexecute hfinish hwikis
    rw [hexecute] at hfinish hwikis
    refine ⟨hfinish, fun host page _ => ?_⟩
    rw [pagesOf_of_wikis hwikis]
    exact get?_pagesOf_afterSession o.dryRun fun site _ => by rw [hsession]
  | ok operations =>
    rw [hoperations] at hexecute
    dsimp only at hexecute hfinish hwikis
    refine ⟨fun e husage => ?_, fun host page hpages => ?_⟩
    · rw [hfinish] at husage
      split at husage
      · cases husage
      · next finish hwork =>
        exact hexecute.finish e (husage ▸ hwork)
    · rw [pagesOf_of_wikis hwikis, hexecute.session, hsurroundings, hdry, hsession]
      refine get?_pagesOf_afterSession o.dryRun fun site hsite => (get?_pagesOn_carryOut fun p hp => ?_).1
      by_cases hhost : hostOf s p.1 = host
      · exact Or.inl (hpages p hp hhost).symm
      · exact Or.inr ⟨fun heq => hhost (heq ▸ hsite), fun hnone => hhost (hostOf_of_central hnone p.1 site ▸ hsite)⟩

end

/-- A run comes to its task or ends before that. -/
theorem runProgram_eq (w : World) (surroundings : Surroundings) (env : Environment) (arguments : List String) :
    (∃ finish output w', w'.wikis = w.wikis ∧ Task.ofArguments w env arguments = .error finish ∧
        runProgram w surroundings env arguments = { finish, output, world := w' }) ∨
      ∃ o s printed name rest w', w'.wikis = w.wikis ∧
        Task.ofArguments w env arguments =
          (match Command.ofArguments name rest with
            | .error e => .error (.usage e)
            | .ok c => .ok ⟨o, s, c⟩) ∧
        runProgram w surroundings env arguments = runCommand w' surroundings env o s printed name rest := by
  rw [Task.ofArguments, runProgram]
  cases takeApart programKinds false arguments with
  | error e => exact Or.inl ⟨_, [], w, rfl, rfl, rfl⟩
  | ok a =>
    dsimp only
    cases a.positional with
    | nil => exact Or.inl ⟨_, [], w, rfl, rfl, rfl⟩
    | cons word rest =>
      dsimp only
      cases CommandName.ofWord? word with
      | none => exact Or.inl ⟨_, [], w, rfl, rfl, rfl⟩
      | some name =>
        dsimp only
        cases programSettings (startLog w (Options.ofArguments a)).1 env (Options.ofArguments a) with
        | error finish => exact Or.inl ⟨finish, _, _, wikis_startLog w _, rfl, rfl⟩
        | ok s => exact Or.inr ⟨_, s, _, name, rest, _, wikis_startLog w _, rfl, rfl⟩

/-- Operations that deal with the pages of some targets submit edits of these pages only. -/
theorem isEditOf_carryOut {m : Manager} {within : List String} {operations : List (Routine Unit)}
    (h : ∀ r ∈ operations, Routine.Orderly m within (fun _ _ => True) [] r) (env : Surroundings) (dryRun : Bool) (s : Session) :
    ∀ p ∈ (carryOut env dryRun s operations).1, ∃ target ∈ within, m.IsEditOf target p := by
  induction operations generalizing s with
  | nil => exact fun p hp => nomatch hp
  | cons r rest ih =>
    obtain ⟨hr, hrest⟩ := List.forall_mem_cons.mp h
    have hfirst := hr.submissions (fun _ hmem => nomatch hmem) env s
    intro p hp
    rw [carryOut] at hp
    cases hrun : s.run env r with
    | mk outcome t =>
      rw [hrun] at hp
      cases outcome with
      | error failure => exact hfirst p hp
      | ok a => exact (List.mem_append.mp hp).elim (hfirst p) (ih hrest _ p)

/-- Every edit of a task is one of the page of a target that its command may work on. -/
theorem Task.isEditOf_submitted (task : Task) (w : World) (surroundings : Surroundings) :
    ∀ p ∈ task.submitted w surroundings, ∃ target ∈ task.command.scope task.settings, task.manager.IsEditOf target p := by
  unfold submitted carriedOut
  cases hoperations : task.command.operations task.manager with
  | error e => exact fun p hp => nomatch hp
  | ok operations => exact isEditOf_carryOut (orderly_operations hoperations) surroundings _ _

/-- A run that keeps to the targets of its settings: it submits edits of their pages only, and if its command names any other target,
then it ends in a usage error and submits none. -/
structure Task.Keeps (task : Task) (w : World) (surroundings : Surroundings) (finish : Finish) : Prop where
  edits : ∀ p ∈ task.submitted w surroundings, ∃ target ∈ task.settings.targets, task.manager.IsEditOf target p
  refused : ∀ target ∈ task.command.named task.settings, target ∉ task.settings.targets →
    (∃ e, finish = .usage e) ∧ task.submitted w surroundings = []

/-- A run that has no task leaves the wikis alone. A run with a task changes no page of which it submits no edit, and it submits edits
of the pages of those targets only that its command may work on. It keeps to the targets of the settings exactly if its command takes
no list of targets, or a list of targets of the settings. -/
theorem program_edits_configured_targets_iff (w : World) (surroundings : Surroundings) (env : Environment) (arguments : List String) :
    match Task.ofArguments w env arguments with
    | .error finish =>
      (runProgram w surroundings env arguments).finish = finish ∧
        ∀ host page, ((runProgram w surroundings env arguments).world.pagesOf host).get? page = (w.pagesOf host).get? page
    | .ok task =>
      (∀ host page, ((runProgram w surroundings env arguments).world.pagesOf host).get? page ≠ (w.pagesOf host).get? page →
          ∃ p ∈ task.submitted w surroundings, hostOf task.settings p.1 = host ∧ p.2.title = page) ∧
        (∀ p ∈ task.submitted w surroundings, ∃ target ∈ task.command.scope task.settings, task.manager.IsEditOf target p) ∧
        (task.Keeps w surroundings (runProgram w surroundings env arguments).finish ↔
          ∀ target ∈ task.command.scope task.settings, target ∈ task.settings.targets) := by
  obtain ⟨finish, output, w', hwikis, htask, hrun⟩ | ⟨o, s, printed, name, rest, w', hwikis, htask, hrun⟩ :=
    runProgram_eq w surroundings env arguments
  · rw [htask, hrun]
    exact ⟨rfl, fun host page => by rw [pagesOf_of_wikis hwikis]⟩
  · rw [htask, hrun]
    cases hcommand : Command.ofArguments name rest with
    | error e =>
      obtain ⟨hfinish, hpages⟩ := runCommand_of_error w' surroundings env o s printed hcommand
      exact ⟨hfinish, fun host page => by rw [hpages, pagesOf_of_wikis hwikis]⟩
    | ok c =>
      obtain ⟨hfinish, hpages⟩ := runCommand_of_ok w' surroundings env o s printed hcommand
      have hsubmitted : (Task.mk o s c).submitted w' surroundings = (Task.mk o s c).submitted w surroundings := by
        rw [Task.submitted, Task.carriedOut, session_of_wikis hwikis]
        rfl
      dsimp only
      refine ⟨fun host page hchanged => ?_, Task.isEditOf_submitted _ w surroundings, fun hkeeps target hscope => ?_, fun hscope => ⟨?_, ?_⟩⟩
      · by_contra hnone
        refine hchanged ?_
        rw [hpages host page fun p hp hhost htitle => hnone ⟨p, hsubmitted ▸ hp, hhost, htitle⟩, pagesOf_of_wikis hwikis]
      · -- A command that goes on to a target which is not known ends in no usage error.
        by_contra hunknown
        obtain ⟨hnamed, operations, hoperations⟩ :=
          operations_of_unknown (m := { settings := s, linksDocs := o.resolveDocs }) hscope hunknown
        obtain ⟨⟨e, husage⟩, -⟩ := hkeeps.refused target hnamed hunknown
        rw [hoperations] at hfinish
        exact hfinish e husage
      · intro p hp
        obtain ⟨target, hmem, hedit⟩ := Task.isEditOf_submitted _ w surroundings p hp
        exact ⟨target, hscope target hmem, hedit⟩
      · intro target hnamed hunknown
        cases hoperations : c.operations { settings := s, linksDocs := o.resolveDocs } with
        | ok operations => exact absurd (hscope target (named_mem_scope hoperations hnamed)) hunknown
        | error e =>
          rw [hoperations] at hfinish
          refine ⟨⟨e, hfinish⟩, ?_⟩
          rw [Task.submitted, Task.carriedOut, Task.manager, hoperations]
          rfl

/-- Normalizing a target that the settings do not have rewrites the page with its name, and the run ends well. -/
theorem normalize_edits_an_unlisted_page :
    ∃ (w : World) (arguments : List String) (task : Task), arguments.drop 5 = ["normalize", "-t", "foo"] ∧
      Task.ofArguments w {} arguments = .ok task ∧ "foo" ∈ task.command.named task.settings ∧ "foo" ∉ task.settings.targets ∧
      (runProgram w {} {} arguments).finish = .exit 0 ∧
      (∃ p ∈ task.submitted w {}, p.2.title = "User:U/foo.js" ∧ ∀ target ∈ task.settings.targets, ¬task.manager.IsEditOf target p) ∧
      ¬task.Keeps w {} (runProgram w {} {} arguments).finish := by
  let w : World := { wikis := [("a.org", [("User:U/foo.js", "mw.loader.load( \"X\" );")])] }
  let arguments := ["--site", "a.org", "--user", "U", "--no-resolve-docs", "normalize", "-t", "foo"]
  have hfinish : (runProgram w {} {} arguments).finish = .exit 0 := by decide +kernel
  have htask : (Task.ofArguments w {} arguments).toOption.any (fun task =>
      "foo" ∈ task.command.named task.settings ∧ "foo" ∉ task.settings.targets ∧
        ∃ p ∈ task.submitted w {}, p.2.title = "User:U/foo.js" ∧ ∀ target ∈ task.settings.targets, ¬task.manager.IsEditOf target p) =
      true := by decide +kernel
  refine ⟨w, arguments, ?_⟩
  clear_value w
  cases hof : Task.ofArguments w {} arguments with
  | error finish => rw [hof] at htask; nomatch htask
  | ok task =>
    rw [hof] at htask
    obtain ⟨hnamed, hunknown, hedit⟩ := of_decide_eq_true htask
    refine ⟨task, rfl, rfl, hnamed, hunknown, hfinish, hedit, fun hkeeps => ?_⟩
    obtain ⟨e, husage⟩ := (hkeeps.refused "foo" hnamed hunknown).1
    rw [hfinish] at husage
    nomatch husage

end CommandLine

end UserScripts
