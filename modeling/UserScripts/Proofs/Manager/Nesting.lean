import UserScripts.Proofs.Manager.Frame
import UserScripts.Proofs.Manager.Request

/-!
# Keys within keys

Which keys a request asks for, and which ones it holds meanwhile. A move holds the key of its old target while it asks for that of
the new one, and whatever else is asked for is asked for with empty hands. Main statements: `Operation.exists_holding` and `Request.nests`.
-/

namespace UserScripts

namespace Routine

variable {α β : Type} {rule : List String → String → Prop} {held now mid : List String}

/-- A routine that starts with some keys, the newest first, and ends with given ones. It asks for a key only if a rule allows that,
given the keys that it holds, and it gives back the key that it has got last. -/
inductive Nests (rule : List String → String → Prop) (held : List String) : List String → Routine α → Prop where
  | done (outcome : Except Failure α) : Nests rule held held (.done outcome)
  | ask {now : List String} {q : Query} {next : q.Answer → Routine α} (hq : q.isAboutKey = false)
      (hnext : ∀ a, Nests rule held now (next a)) : Nests rule held now (.ask q next)
  | acquire {now : List String} {key : String} {next : Unit → Routine α} (allowed : rule now key)
      (hnext : Nests rule held (key :: now) (next ())) : Nests rule held now (.ask (.acquire key) next)
  | release {now : List String} {key : String} {next : Unit → Routine α} (hnext : Nests rule held now (next ())) :
      Nests rule held (key :: now) (.ask (.release key) next)

/-- A routine that asks for no key nests under any rule and holds what it held. -/
theorem Keyless.nests {r : Routine α} (h : Keyless r) : Nests rule held held r := by
  induction h with
  | done outcome => exact .done outcome
  | ask hq _ ih => exact .ask hq ih

namespace Nests

/-- A routine that is over holds the keys with which it was to end. -/
theorem of_done {outcome : Except Failure α} (h : Nests rule held now (.done outcome)) : now = held := by
  cases h with
  | done => rfl

/-- After a query that is not about a key a routine holds the same keys. -/
theorem of_ask {q : Query} {next : q.Answer → Routine α} (h : Nests rule held now (.ask q next)) (hq : q.isAboutKey = false)
    (a : q.Answer) : Nests rule held now (next a) := by
  cases h with
  | ask _ hnext => exact hnext a
  | acquire => cases hq
  | release => cases hq

/-- A key that is asked for is allowed by the rule, and after that it is the newest one. -/
theorem of_acquire {key : String} {next : Unit → Routine α} (h : Nests rule held now (.ask (.acquire key) next)) :
    rule now key ∧ Nests rule held (key :: now) (next ()) := by
  cases h with
  | ask hq => cases hq
  | acquire allowed hnext => exact ⟨allowed, hnext⟩

/-- The key that is given back is the newest one. -/
theorem of_release {key : String} {next : Unit → Routine α} (h : Nests rule held now (.ask (.release key) next)) :
    ∃ before, now = key :: before ∧ Nests rule held before (next ()) := by
  cases h with
  | ask hq => cases hq
  | release hnext => exact ⟨_, rfl, hnext⟩

/-- Routines that nest do so in sequence, if the second one ends with the keys that it starts with. -/
theorem bind {r : Routine α} {f : α → Routine β} (hr : Nests rule held now r) (hf : ∀ a, Nests rule held held (f a)) :
    Nests rule held now (r >>= f) := by
  induction hr with
  | done outcome =>
    cases outcome with
    | ok a => exact hf a
    | error e => exact .done (.error e)
  | ask hq _ ih => exact .ask hq ih
  | acquire allowed _ ih => exact .acquire allowed ih
  | release _ ih => exact .release ih

/-- What follows an attempt is carried out whether the attempt fails or not. -/
theorem attempt_bind {r : Routine α} {f : Except Failure α → Routine β} (hr : Nests rule mid now r)
    (hf : ∀ outcome, Nests rule held mid (f outcome)) : Nests rule held now (r.attempt >>= f) := by
  induction hr with
  | done outcome => exact hf outcome
  | ask hq _ ih => exact .ask hq ih
  | acquire allowed _ ih => exact .acquire allowed ih
  | release _ ih => exact .release ih

/-- A routine that nests under a further key nests when it is carried out under that key. -/
theorem holding {key : String} {r : Routine α} (allowed : rule held key) (h : Nests rule (key :: held) (key :: held) r) :
    Nests rule held held (Manager.holding key r) :=
  .acquire allowed (h.attempt_bind fun outcome => .release (.done outcome))

end Nests

/-- Routines that ask for no key do so one after the other. -/
theorem Keyless.all {rs : List (Routine α)} (h : ∀ r ∈ rs, Keyless r) : Keyless (Routine.all rs) := by
  have hattempts : Keyless (Routine.attemptAll rs) := by
    induction rs with
    | nil => exact .done (.ok [])
    | cons r rs ih =>
      have hrest := ih fun r' hr' => h r' (List.mem_cons_of_mem _ hr')
      exact (h r List.mem_cons_self).attempt.bind fun _ => hrest.bind fun _ => .done (.ok _)
  exact hattempts.bind fun _ => .done _

end Routine

namespace Manager

open Routine

/-! ## Routines without keys -/

/-- Getting the text of a target asks for no key. -/
theorem keyless_getText (m : Manager) (target : String) (refresh : Bool) : Keyless (m.getText target refresh) := by
  have hrecall : Keyless (do
      let text ← Routine.query (.recall target)
      return text.getD "") := .ask rfl fun _ => .done (.ok _)
  refine .ask rfl fun known => ?_
  by_cases hfetch : (refresh || known.isNone) = true
  · rw [Routine.bind, if_pos hfetch]
    exact (keyless_fetch m target).bind fun _ => hrecall
  · rw [Routine.bind, if_neg hfetch]
    exact hrecall

/-- Listing the statements of a target asks for no key. -/
theorem keyless_listEntries (m : Manager) (target : String) (refresh : Bool) : Keyless (m.listEntries target refresh) :=
  (keyless_getText m target refresh).bind fun _ => (Keyless.notes _).bind fun _ => .done (.ok _)

/-- Listing the statements of several targets asks for no key. -/
theorem keyless_loadAll (m : Manager) (targets : List String) (refresh : Bool) : Keyless (m.loadAll targets refresh) := by
  refine (Keyless.all fun r hr => ?_).bind fun _ => .done (.ok _)
  obtain ⟨target, -, rfl⟩ := List.mem_map.mp hr
  exact keyless_listEntries m target refresh

/-- Putting a script back asks for no key. -/
theorem keyless_restore (m : Manager) (e : Entry) (kept : List String) : Keyless (m.restore e kept) := by
  refine (Keyless.notes _).bind fun _ => ?_
  split
  · exact (consults_annotate m _).keyless.bind fun _ => (Keyless.done _).bind fun _ => .done (.ok _)
  · exact .done (.ok kept)

/-- An inquiry asks for no key. -/
theorem keyless_inquiry (m : Manager) (i : Inquiry) (refresh : Bool) : Keyless (i.routine m refresh) := by
  cases i with
  | text target => exact (keyless_getText m target refresh).bind fun _ => .done (.ok _)
  | entries target => exact (keyless_listEntries m target refresh).bind fun _ => .done (.ok _)
  | items target =>
    have hitems : Keyless (m.listCaptured target refresh) :=
      (keyless_getText m target refresh).bind fun _ => (Keyless.notes _).bind fun _ => .done (.ok _)
    exact hitems.bind fun _ => .done (.ok _)
  | loaded targets => exact (keyless_loadAll m targets refresh).bind fun _ => .done (.ok _)
  | loading page => exact (keyless_loadAll m [] refresh).bind fun _ => .done (.ok _)

/-! ## Operations -/

/-- The keys of a move, that of its old target and that of its new one. -/
def sourceKey (e : Entry) : String :=
  lockKey e.target e.displayName

def arrivalKey (e : Entry) (destination : String) : String :=
  lockKey destination e.displayName

end Manager

open Routine Manager

variable {m : Manager} {rule : List String → String → Prop}

/-- The key of an operation: that of its entry, or that of a target as a whole. -/
def Operation.key (target : String) (op : Operation) : String :=
  match op.entry? with
  | some e => sourceKey e
  | none => lockKey target ""

/-- Every operation does all that it does while it holds its key, and asks for no other one meanwhile. -/
theorem Operation.exists_holding (m : Manager) (target : String) (op : Operation) :
    ∃ r, op.routine m target = holding (op.key target) r ∧ Keyless r := by
  cases op with
  | install e => exact ⟨_, rfl, keyless_installUnlocked m e⟩
  | uninstall e => exact ⟨_, rfl, keyless_uninstallUnlocked m e⟩
  | setDisabled e disabled =>
    refine ⟨_, rfl, (keyless_fetch m e.target).bind fun page => (Keyless.notes _).bind fun _ => ?_⟩
    exact (Keyless.done _).bind fun _ => keyless_commit m e.target _ _ _
  | normalize =>
    refine ⟨_, rfl, (keyless_fetch m target).bind fun page => (Keyless.notes _).bind fun _ => ?_⟩
    have hannotate : Consults (Routine.all ((Page.plainEntries page target).map fun p => m.annotate p.2)) := by
      refine .all fun r hr => ?_
      obtain ⟨p, -, rfl⟩ := List.mem_map.mp hr
      exact consults_annotate m p.2
    exact hannotate.keyless.bind fun _ => (Keyless.done _).bind fun _ => keyless_commit m target _ _ _
  | capture e name =>
    refine ⟨_, rfl, (keyless_fetch m e.target).bind fun page => (Keyless.notes _).bind fun _ => ?_⟩
    exact (Keyless.done _).bind fun _ => keyless_commit m e.target _ _ _
  | decapture e =>
    refine ⟨_, rfl, (keyless_fetch m e.target).bind fun page => (Keyless.notes _).bind fun _ => ?_⟩
    refine (Keyless.done _).bind fun release => (Keyless.notes _).bind fun _ => ?_
    exact (keyless_restore m e _).bind fun _ => keyless_commit m e.target _ _ _

namespace Manager

/-- A move does all that it does while it holds the key of its old target, and asks for that of its new one meanwhile. -/
theorem exists_holding_move (m : Manager) (e : Entry) {destination : String} (hne : destination ≠ e.target) :
    ∃ r, m.move e destination = holding (sourceKey e) r ∧
      ∀ rule : List String → String → Prop, rule [sourceKey e] (arrivalKey e destination) → Nests rule [sourceKey e] [sourceKey e] r := by
  refine ⟨_, if_neg hne, fun rule second => ?_⟩
  refine (keyless_fetch m e.target).nests.bind fun page => (keyless_isInstalled m page e).nests.bind fun found => ?_
  cases found with
  | false => exact .done _
  | true =>
    have hinstall : Nests rule [sourceKey e] [sourceKey e] (m.install (e.withTarget destination)) :=
      .holding second (keyless_installUnlocked m _).nests
    refine hinstall.bind fun _ => (keyless_uninstallUnlocked m e).attempt.nests.bind fun outcome => ?_
    cases outcome with
    | ok _ => exact (keyless_say _ _).nests.bind fun _ => .done (.ok true)
    | error cause => exact (keyless_say _ _).nests.bind fun _ => .done (.error _)

/-! ## Requests -/

/-- An operation holds nothing when it asks for its key, so every rule that allows this lets it nest. -/
theorem nests_operation (empty : ∀ key, rule [] key) (target : String) (op : Operation) :
    Nests rule [] [] (op.routine m target) := by
  obtain ⟨r, hr, hkeyless⟩ := op.exists_holding m target
  rw [hr]
  exact .holding (empty _) hkeyless.nests

/-- A batch holds nothing when it asks for a key. -/
theorem nests_normalizeAll (empty : ∀ key, rule [] key) (targets : List String) :
    Nests rule [] [] (m.normalizeAll targets) := by
  induction targets with
  | nil => exact .done (.ok [])
  | cons target rest ih =>
    have hstatus : Nests rule [] [] (m.normalizeReporting target) := by
      refine (nests_operation empty target .normalize).attempt_bind fun outcome => ?_
      split
      · exact .done (.ok _)
      · exact .done (.ok _)
      · exact .done (.error _)
      · exact .ask rfl fun _ => .done (.ok _)
    exact hstatus.bind fun _ => ih.bind fun _ => .done (.ok _)

end Manager

namespace Request

/-- The key that a request holds while it asks for another one, and that other one. Only moves do so. -/
def nesting? : Request → Option (String × String)
  | .move e destination =>
    if destination = e.target then none
    else some (Lock.keyOf (Manager.sourceKey e), Lock.keyOf (Manager.arrivalKey e destination))
  | _ => none

/-- What a request may hold while it asks for a key: nothing, unless it is a move that asks for its second key. -/
def Rule (request : Request) (held : List String) (key : String) : Prop :=
  held = [] ∨ ∃ first, held = [first] ∧ request.nesting? = some (Lock.keyOf first, Lock.keyOf key)

end Request

/-- Whatever a request does, it asks for keys in this way, and it ends with empty hands. -/
theorem Request.nests (m : Manager) (request : Request) : Nests request.Rule [] [] (request.routine m) := by
  have empty : ∀ key, request.Rule [] key := fun key => Or.inl rfl
  cases request with
  | inquire inquiry refresh => exact (keyless_inquiry m inquiry refresh).nests
  | operate target op => exact (nests_operation empty target op).bind fun _ => .done (.ok _)
  | move e destination =>
    refine Nests.bind ?_ fun _ => .done (.ok _)
    by_cases hsame : destination = e.target
    · rw [Manager.move, if_pos hsame]
      exact .done (.ok false)
    · obtain ⟨r, hr, hnests⟩ := exists_holding_move m e hsame
      rw [hr]
      exact .holding (empty _) (hnests _ (Or.inr ⟨sourceKey e, rfl, if_neg hsame⟩))
  | normalizeAll targets =>
    have hbatch : Nests (Request.Rule (.normalizeAll targets)) [] [] (m.normalizeBatch targets) :=
      (nests_normalizeAll empty targets).bind fun _ => .done (.ok _)
    exact hbatch.bind fun _ => .done (.ok _)
  | forget target => exact .ask rfl fun _ => .done (.ok _)

end UserScripts
