import UserScripts.Manager.Move
import UserScripts.Manager.Read
import UserScripts.Proofs.Manager.Effects
import UserScripts.Proofs.Manager.Outcome

/-!
# How routines deal with pages

All routines of the manager deal with pages in the same way, whatever they are answered. They read the page of a target and
remember its text at once, they save a page only if they have read it before, and they forget the target at once after that. What
else they ask for does not touch pages, nor does it put anything into the cache. Main definition: `Routine.Orderly`. Main
statements: `orderly_fetch`, `orderly_submit` and one statement for each operation.
-/

namespace UserScripts

open UserScripts.Text

/-- Every entry of a list of pairs is one of the pairs. -/
theorem Keyed.mem_of_mem_ofPairs {κ α : Type} [DecidableEq κ] {pairs : List (κ × α)} {p : κ × α} (h : p ∈ Keyed.ofPairs pairs) :
    p ∈ pairs := by
  have hput (key : κ) (value : α) (entries : Keyed κ α) (hp : p ∈ Keyed.put key value entries) : p = (key, value) ∨ p ∈ entries := by
    induction entries with
    | nil => exact Or.inl (List.mem_singleton.mp hp)
    | cons entry rest ih =>
      rw [Keyed.put] at hp
      split at hp
      · exact (List.mem_cons.mp hp).imp_right (List.mem_cons_of_mem _)
      · obtain rfl | hp := List.mem_cons.mp hp
        · exact Or.inr List.mem_cons_self
        · exact (ih hp).imp_right (List.mem_cons_of_mem _)
  suffices ∀ entries : Keyed κ α, p ∈ pairs.foldl (fun entries p => Keyed.put p.1 p.2 entries) entries → p ∈ entries ∨ p ∈ pairs from
    (this [] h).resolve_left List.not_mem_nil
  clear h
  induction pairs with
  | nil => exact fun entries hp => Or.inl hp
  | cons q pairs ih =>
    intro entries hp
    obtain hp | hp := ih _ hp
    · exact (hput _ _ _ hp).elim (fun heq => Or.inr (heq ▸ List.mem_cons_self)) Or.inl
    · exact Or.inr (List.mem_cons_of_mem _ hp)

/-- Whether a query puts something into the cache. -/
def Query.remembers : Query → Bool
  | .remember _ _ => true
  | _ => false

namespace Routine

variable {α β : Type} {m : Manager} {within read : List String}

/-- A routine that works on some of the given targets in an orderly way. `read` are the targets whose pages have been read before,
and `post` is what holds, if the routine does not fail, of the targets whose pages have been read in the end and of the value. -/
inductive Orderly (m : Manager) (within : List String) (post : List String → α → Prop) : List String → Routine α → Prop where
  | done {read : List String} {a : α} (h : post read a) : Orderly m within post read (.done (.ok a))
  | failed {read : List String} {failure : Failure} : Orderly m within post read (.done (.error failure))
  | fetch {read : List String} {target : String} {next : Except Failure String → Routine α} {rest : String → Unit → Routine α}
      (mem : target ∈ within) (refused : ∀ failure, Orderly m within post read (next (.error failure)))
      (remembered : ∀ text, next (.ok text) = .ask (.remember target text) (rest text))
      (fetched : ∀ text, Orderly m within post (target :: read) (rest text ())) :
      Orderly m within post read (.ask (.read (m.siteOf target) (m.settings.targetTitle target)) next)
  | submit {read : List String} {target : String} {edit : Edit} {next : Except Failure Unit → Routine α}
      {rest : Except Failure Unit → Unit → Routine α} (mem : target ∈ read) (title : edit.title = m.settings.targetTitle target)
      (forgotten : ∀ outcome, next outcome = .ask (.forget (some target)) (rest outcome))
      (saved : ∀ outcome, Orderly m within post read (rest outcome ())) :
      Orderly m within post read (.ask (.save (m.siteOf target) edit) next)
  | quiet {read : List String} {q : Query} {next : q.Answer → Routine α} (hq : q.isQuiet = true) (hr : q.remembers = false)
      (hnext : ∀ a, Orderly m within post read (next a)) : Orderly m within post read (.ask q next)

namespace Orderly

variable {post : List String → α → Prop} {post' : List String → β → Prop}

/-- Two parts in sequence are orderly if the second one is so after what the first one has read. -/
theorem bind {r : Routine α} {f : α → Routine β} (hr : Orderly m within post read r)
    (hf : ∀ read a, post read a → Orderly m within post' read (f a)) : Orderly m within post' read (r >>= f) := by
  induction hr with
  | done h => exact hf _ _ h
  | failed => exact .failed
  | fetch mem _ remembered _ ihRefused ihFetched =>
    exact .fetch mem ihRefused (fun text => by rw [remembered]; rfl) ihFetched
  | submit mem title forgotten _ ih => exact .submit mem title (fun outcome => by rw [forgotten]; rfl) ih
  | quiet hq hr _ ih => exact .quiet hq hr ih

/-- A routine whose failure is caught is as orderly as it is. -/
theorem attempt {r : Routine α} (hr : Orderly m within post read r) :
    Orderly m within (fun read outcome => ∀ a, outcome = .ok a → post read a) read r.attempt := by
  induction hr with
  | done h => exact .done fun a ha => Except.ok.inj ha ▸ h
  | failed => exact .done nofun
  | fetch mem _ remembered _ ihRefused ihFetched =>
    exact .fetch mem ihRefused (fun text => by rw [remembered]; rfl) ihFetched
  | submit mem title forgotten _ ih => exact .submit mem title (fun outcome => by rw [forgotten]; rfl) ih
  | quiet hq hr _ ih => exact .quiet hq hr ih

/-- An outcome that is not a value ends a sequence. -/
theorem after_outcome {outcome : Except Failure α} {f : α → Routine β} (h : ∀ a, outcome = .ok a → Orderly m within post' read (f a)) :
    Orderly m within post' read (Routine.ofExcept outcome >>= f) := by
  cases outcome with
  | ok a => exact h a rfl
  | error failure => exact .failed

/-- A routine that is orderly is so after notes. -/
theorem after_notes {ns : List Note} {f : Unit → Routine β} (h : Orderly m within post' read (f ())) :
    Orderly m within post' read (Routine.notes ns >>= f) := by
  induction ns with
  | nil => exact h
  | cons n ns ih => exact .quiet rfl rfl fun _ => ih

/-- A value at hand, or a failure, is orderly. -/
theorem ofExcept {outcome : Except Failure α} (h : ∀ a, outcome = .ok a → post read a) :
    Orderly m within post read (Routine.ofExcept outcome) := by
  cases outcome with
  | ok a => exact .done (h a rfl)
  | error failure => exact .failed

/-- Whatever is done while a key is held is done in an orderly way. -/
theorem holding {key : String} {r : Routine α} (hr : Orderly m within post read r) :
    Orderly m within post read (Manager.holding key r) := by
  refine .quiet rfl rfl fun _ => hr.attempt.bind fun read outcome houtcome => ?_
  exact .quiet rfl rfl fun _ => .ofExcept houtcome

/-- Routines that are orderly whatever has been read before can be carried out one after the other. -/
theorem all {rs : List (Routine α)} (h : ∀ r ∈ rs, ∀ read, Orderly m within (fun _ _ => True) read r) (read : List String) :
    Orderly m within (fun _ _ => True) read (Routine.all rs) := by
  have hattempts : Orderly m within (fun _ _ => True) read (Routine.attemptAll rs) := by
    induction rs generalizing read with
    | nil => exact .done trivial
    | cons r rs ih =>
      refine (h r List.mem_cons_self read).attempt.bind fun read outcome _ => ?_
      exact (ih (fun r' hr' => h r' (List.mem_cons_of_mem _ hr')) read).bind fun _ _ _ => .done trivial
  exact hattempts.bind fun _ _ _ => .ofExcept fun _ _ => trivial

end Orderly

namespace Consults

/-- A routine that only asks for sources does so where its failure is caught. -/
theorem attempt {r : Routine α} (h : Consults r) : Consults r.attempt := by
  induction h with
  | done outcome => exact .done (.ok outcome)
  | lookup _ ih => exact .lookup ih
  | note _ ih => exact .note ih

/-- Routines that only ask for sources do so one after the other. -/
theorem all {rs : List (Routine α)} (h : ∀ r ∈ rs, Consults r) : Consults (Routine.all rs) := by
  have hattempts : Consults (Routine.attemptAll rs) := by
    induction rs with
    | nil => exact .done (.ok [])
    | cons r rs ih =>
      have hrest := ih fun r' hr' => h r' (List.mem_cons_of_mem _ hr')
      exact (h r List.mem_cons_self).attempt.bind fun _ => hrest.bind fun _ => .done (.ok _)
  exact hattempts.bind fun _ => .done _

/-- A routine that asks for nothing but the sources of scripts reads no page. -/
theorem orderly {r : Routine α} (h : Consults r) : Orderly m within (fun after _ => after = read) read r := by
  induction h with
  | done outcome => exact .ofExcept fun _ _ => rfl
  | lookup _ ih => exact .quiet rfl rfl ih
  | note _ ih => exact .quiet rfl rfl ih

end Consults

end Routine

namespace Manager

open Routine

variable {m : Manager} {within read : List String} {e : Entry} {target : String}

/-! ## Steps -/

/-- A message is orderly: it reads no page. -/
theorem orderly_say {gravity : Gravity} {text : String} : Orderly m within (fun after _ => after = read) read (say gravity text) :=
  .quiet rfl rfl fun _ => .done rfl

/-- Fetching a page is reading it and remembering its text. -/
theorem orderly_fetch (h : target ∈ within) :
    Orderly m within (fun after _ => after = target :: read) read (m.fetch target) :=
  .fetch h (fun _ => .failed) (fun _ => rfl) fun _ => .done rfl

/-- Submitting a change is saving the page and forgetting its text. -/
theorem orderly_submit {summary : String} {change : Change} (h : target ∈ read) :
    Orderly m within (fun after _ => after = read) read (m.submit target summary change) := by
  refine .submit h rfl (fun _ => rfl) fun outcome => ?_
  cases outcome with
  | ok _ => exact orderly_say
  | error failure => exact .failed

/-- A commit is orderly if the page of its target has been read. -/
theorem orderly_commit {summary : String} {old new : List String} (h : target ∈ read) :
    Orderly m within (fun _ _ => True) read (m.commit target summary old new) := by
  unfold commit
  split
  · exact orderly_say.bind fun _ _ _ => .done trivial
  · exact (orderly_submit h).bind fun _ _ _ => .done trivial

/-- Finding a script on a page is orderly: it reads no page. -/
theorem orderly_isInstalled {page : List String} : Orderly m within (fun after _ => after = read) read (m.isInstalled page e) :=
  .after_notes (.ofExcept fun _ _ => rfl)

/-- Looking up the documentation of a script does not change its target. -/
theorem orderly_annotate : Orderly m within (fun after e' => after = read ∧ e'.target = e.target) read (m.annotate e) := by
  unfold annotate
  split
  · exact .done ⟨rfl, rfl⟩
  · refine (consults_documentation m e).orderly.bind fun _ title hread => ?_
    cases given title <;> exact .done ⟨hread, rfl⟩

/-- Every operation starts by fetching the page of its target. -/
theorem orderly_after_fetch {α : Type} {post : List String → α → Prop} {f : List String → Routine α} (h : target ∈ within)
    (hf : ∀ page, Orderly m within post (target :: read) (f page)) : Orderly m within post read (m.fetch target >>= f) :=
  (orderly_fetch h).bind fun _ page hread => hread ▸ hf page

/-! ## Operations -/

/-- Installing without the lock is orderly on its target. -/
theorem orderly_installUnlocked (h : e.target ∈ within) : Orderly m within (fun _ _ => True) read (m.installUnlocked e) := by
  refine orderly_after_fetch h fun page => orderly_isInstalled.bind fun _ found hread => ?_
  subst hread
  cases found with
  | true => exact orderly_say.bind fun _ _ _ => .done trivial
  | false =>
    refine orderly_annotate.bind fun _ e' hannotated => ?_
    obtain ⟨rfl, htarget⟩ := hannotated
    refine .after_outcome fun statement _ => ?_
    rw [htarget]
    exact (orderly_submit List.mem_cons_self).bind fun _ _ _ => .done trivial

/-- Installing is orderly on its target. -/
theorem orderly_install (h : e.target ∈ within) : Orderly m within (fun _ _ => True) read (m.install e) :=
  (orderly_installUnlocked h).holding

/-- Uninstalling without the lock is orderly on its target. -/
theorem orderly_uninstallUnlocked (h : e.target ∈ within) : Orderly m within (fun _ _ => True) read (m.uninstallUnlocked e) := by
  refine orderly_after_fetch h fun page => .after_notes (.after_outcome fun removal _ => ?_)
  split
  · exact .after_notes (orderly_commit List.mem_cons_self)
  · exact orderly_commit List.mem_cons_self

/-- Uninstalling is orderly on its target. -/
theorem orderly_uninstall (h : e.target ∈ within) : Orderly m within (fun _ _ => True) read (m.uninstall e) :=
  (orderly_uninstallUnlocked h).holding

/-- Switching a script is orderly on its target. -/
theorem orderly_setDisabled {disabled : Bool} (h : e.target ∈ within) :
    Orderly m within (fun _ _ => True) read (m.setDisabled e disabled) := by
  refine .holding (orderly_after_fetch h fun page => .after_notes (.after_outcome fun new _ => ?_))
  exact orderly_commit List.mem_cons_self

/-- Normalizing is orderly on its target. -/
theorem orderly_normalize (h : target ∈ within) : Orderly m within (fun _ _ => True) read (m.normalize target) := by
  refine .holding (orderly_after_fetch h fun page => .after_notes ?_)
  have hannotate : Consults (Routine.all ((Page.plainEntries page target).map fun p => m.annotate p.2)) := by
    refine .all fun r hr => ?_
    obtain ⟨p, -, rfl⟩ := List.mem_map.mp hr
    exact consults_annotate m p.2
  refine hannotate.orderly.bind fun _ annotated hread => .after_outcome fun statements _ => ?_
  exact orderly_commit (hread ▸ List.mem_cons_self)

/-- A capture is orderly on its target. -/
theorem orderly_capture {name : Option String} (h : e.target ∈ within) :
    Orderly m within (fun _ _ => True) read (m.capture e name) := by
  refine .holding (orderly_after_fetch h fun page => .after_notes (.after_outcome fun new _ => ?_))
  exact orderly_commit List.mem_cons_self

/-- Putting a script back is orderly: it reads no page. -/
theorem orderly_restore {kept : List String} : Orderly m within (fun after _ => after = read) read (m.restore e kept) := by
  refine .after_notes ?_
  split
  · refine (consults_annotate m _).orderly.bind fun _ e' hread => .after_outcome fun statement _ => ?_
    exact .done hread
  · exact .done rfl

/-- A decapture is orderly on its target. -/
theorem orderly_decapture (h : e.target ∈ within) : Orderly m within (fun _ _ => True) read (m.decapture e) := by
  refine .holding (orderly_after_fetch h fun page => .after_notes (.after_outcome fun release _ => .after_notes ?_))
  exact orderly_restore.bind fun _ restored hread => orderly_commit (hread ▸ List.mem_cons_self)

/-- A move deals with the page of the old target, then with that of the new one and then again with that of the old one. -/
theorem orderly_move {destination : String} (h : e.target ∈ within) (hdestination : destination ∈ within) :
    Orderly m within (fun _ _ => True) read (m.move e destination) := by
  unfold move
  split
  · exact .done trivial
  · refine .holding (orderly_after_fetch h fun page => orderly_isInstalled.bind fun _ found _ => ?_)
    cases found with
    | false => exact .failed
    | true =>
      have hinstall : ∀ read, Orderly m within (fun _ _ => True) read (m.install (e.withTarget destination)) :=
        fun _ => orderly_install hdestination
      refine (hinstall _).bind fun _ _ _ => (orderly_uninstallUnlocked h).attempt.bind fun _ outcome _ => ?_
      cases outcome with
      | ok _ => exact orderly_say.bind fun _ _ _ => .done trivial
      | error cause => exact orderly_say.bind fun _ _ _ => .failed

/-! ## Reading and batches -/

/-- Getting the text of a target is orderly on it. -/
theorem orderly_getText {refresh : Bool} (h : target ∈ within) :
    Orderly m within (fun _ _ => True) read (m.getText target refresh) := by
  have hrecall : ∀ read, Orderly m within (fun _ _ => True) read (do
      let text ← Routine.query (.recall target)
      return text.getD "") := fun _ => .quiet rfl rfl fun _ => .done trivial
  refine .quiet rfl rfl fun known => ?_
  by_cases hfetch : (refresh || known.isNone) = true
  · rw [Routine.bind, if_pos hfetch]
    exact orderly_after_fetch h fun _ => hrecall _
  · rw [Routine.bind, if_neg hfetch]
    exact hrecall _

/-- Listing the statements of a target is orderly on it. -/
theorem orderly_listEntries {refresh : Bool} (h : target ∈ within) :
    Orderly m within (fun _ _ => True) read (m.listEntries target refresh) :=
  (orderly_getText h).bind fun _ _ _ => .after_notes (.done trivial)

/-- Listing the captured items of a target is orderly on it. -/
theorem orderly_listCaptured {refresh : Bool} (h : target ∈ within) :
    Orderly m within (fun _ _ => True) read (m.listCaptured target refresh) :=
  (orderly_getText h).bind fun _ _ _ => .after_notes (.done trivial)

/-- All targets are read, one after the other, before a failure counts. What is loaded is of no other targets. -/
theorem orderly_loadAll {targets : List String} {refresh : Bool}
    (h : ∀ target ∈ if targets.isEmpty then m.settings.targets else targets, target ∈ within) :
    Orderly m within (fun _ loaded => ∀ p ∈ loaded, p.1 ∈ within) read (m.loadAll targets refresh) := by
  refine (Orderly.all (fun r hr read => ?_) read).bind fun _ results _ => .done fun p hp => ?_
  · obtain ⟨target, htarget, rfl⟩ := List.mem_map.mp hr
    exact orderly_listEntries (h target htarget)
  · exact h _ (List.of_mem_zip (Keyed.mem_of_mem_ofPairs hp)).1

/-- A batch is orderly on its targets. -/
theorem orderly_normalizeAll {targets : List String} (h : ∀ target ∈ targets, target ∈ within) :
    Orderly m within (fun _ _ => True) read (m.normalizeAll targets) := by
  induction targets generalizing read with
  | nil => exact .done trivial
  | cons target rest ih =>
    have hstatus : Orderly m within (fun _ _ => True) read (m.normalizeReporting target) := by
      refine (orderly_normalize (h target List.mem_cons_self)).attempt.bind fun _ outcome _ => ?_
      split
      · exact .done trivial
      · exact .done trivial
      · exact .failed
      · exact .quiet rfl rfl fun _ => .done trivial
    refine hstatus.bind fun _ _ _ => ?_
    exact (ih fun t ht => h t (List.mem_cons_of_mem _ ht)).bind fun _ _ _ => .done trivial

end Manager

end UserScripts
