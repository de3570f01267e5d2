import UserScripts.Manager.Move
import UserScripts.Proofs.Manager.Outcome
import UserScripts.Proofs.Session.Visited

/-!
# What operations leave alone

An operation on a target changes no page but that of the target, in no state on its way. Nor does it ever ask for a key that it
holds; a move, which holds the key of one target while it asks for that of another, does not either, unless the two keys are the
same one. Main statements: `frame_installUnlocked`, `frame_uninstallUnlocked` and `keeps_move`.
-/

namespace UserScripts

open UserScripts.Text

/-! ## Keys -/

namespace Routine

variable {α : Type} {held : List String}

/-- A routine that asks for the sources of scripts only asks for no key. -/
theorem Consults.keyless {r : Routine α} (h : Consults r) : Keyless r := by
  induction h with
  | done outcome => exact .done outcome
  | lookup _ ih => exact .ask rfl ih
  | note _ ih => exact .ask rfl ih

/-- What is carried out under a key gives it back: it ends with the keys that it started with. -/
theorem Keeps.holding {key : String} {r : Routine α} (free : Lock.keyOf key ∉ held)
    (h : Keeps (Lock.keyOf key :: held) (Lock.keyOf key :: held) r) : Keeps held held (Manager.holding key r) := by
  refine .acquire free (h.attempt_bind fun outcome => .release ?_)
  rw [List.erase_cons_head]
  exact .done outcome

end Routine

namespace Manager

open Routine

variable {m : Manager} {e : Entry} {env : Surroundings} {s t u : Session} {destination : String} {held : List String}

/-- A message asks for no key. -/
theorem keyless_say (gravity : Gravity) (text : String) : Keyless (say gravity text) :=
  .query rfl

/-- Fetching a target asks for no key. -/
theorem keyless_fetch (m : Manager) (target : String) : Keyless (m.fetch target) :=
  (Keyless.query rfl).bind fun outcome => (Keyless.done outcome).bind fun _ => (Keyless.query rfl).bind fun _ => .done (.ok _)

/-- Submitting a change asks for no key. -/
theorem keyless_submit (m : Manager) (target summary : String) (change : Change) : Keyless (m.submit target summary change) :=
  (Keyless.query rfl).bind fun outcome => (Keyless.query rfl).bind fun _ => (Keyless.done outcome).bind fun _ => keyless_say _ _

/-- Committing a change asks for no key. -/
theorem keyless_commit (m : Manager) (target summary : String) (old new : List String) :
    Keyless (m.commit target summary old new) := by
  unfold commit
  split
  · exact (keyless_say _ _).bind fun _ => .done (.ok false)
  · exact (keyless_submit m target summary _).bind fun _ => .done (.ok true)

/-- Finding a script on a page asks for no key. -/
theorem keyless_isInstalled (m : Manager) (page : List String) (e : Entry) : Keyless (m.isInstalled page e) :=
  (Keyless.notes _).bind fun _ => .done _

/-- Installing without the lock asks for no key. -/
theorem keyless_installUnlocked (m : Manager) (e : Entry) : Keyless (m.installUnlocked e) := by
  refine (keyless_fetch m e.target).bind fun page => (keyless_isInstalled m page e).bind fun found => ?_
  cases found with
  | true => exact (keyless_say _ _).bind fun _ => .done (.ok false)
  | false =>
    refine (consults_annotate m e).keyless.bind fun e' => (Keyless.done _).bind fun statement => ?_
    exact (keyless_submit m e'.target _ _).bind fun _ => .done (.ok true)

/-- Uninstalling without the lock asks for no key. -/
theorem keyless_uninstallUnlocked (m : Manager) (e : Entry) : Keyless (m.uninstallUnlocked e) := by
  refine (keyless_fetch m e.target).bind fun page => (Keyless.notes _).bind fun _ => (Keyless.done _).bind fun removal => ?_
  split
  · exact (Keyless.notes _).bind fun _ => keyless_commit m e.target _ _ _
  · exact keyless_commit m e.target _ _ _

/-- A move asks for the key of the new target while it holds that of the old one, and for no key that it holds. -/
theorem keeps_move (hkeys : Lock.keyOf (lockKey destination e.displayName) ≠ Lock.keyOf (lockKey e.target e.displayName)) :
    Keeps [] [] (m.move e destination) := by
  unfold move
  split
  · exact .done (.ok false)
  · refine Keeps.holding (List.not_mem_nil) ?_
    refine (keyless_fetch m e.target).keeps.bind fun page => (keyless_isInstalled m page e).keeps.bind fun found => ?_
    cases found with
    | false => exact .done _
    | true =>
      have hinstall : Keeps [Lock.keyOf (lockKey e.target e.displayName)] [Lock.keyOf (lockKey e.target e.displayName)]
          (m.install (e.withTarget destination)) :=
        Keeps.holding (fun h => hkeys (List.mem_singleton.mp h)) (keyless_installUnlocked m _).keeps
      refine hinstall.bind fun _ => (keyless_uninstallUnlocked m e).attempt.keeps.bind fun outcome => ?_
      cases outcome with
      | ok _ => exact (keyless_say _ _).keeps.bind fun _ => .done (.ok true)
      | error cause => exact (keyless_say _ _).keeps.bind fun _ => .done (.error _)

/-! ## Pages that an operation leaves alone -/

/-- The page of a target, in no state on the way of a routine, is the only one that it changes. -/
abbrev FrameOf (m : Manager) (target : String) (env : Surroundings) (s : Session) {α : Type} (r : Routine α) : Prop :=
  Session.Frame (m.siteOf target) (m.settings.targetTitle target) env s r

/-- Fetching a target changes no page at all. -/
theorem frame_fetch (m : Manager) (target : String) (site : Site) (title : String) (env : Surroundings) (s : Session) :
    Session.Frame site title env s (m.fetch target) :=
  (Session.Frame.query ((Session.unchanged_read env s _ _).aside site title)).bind fun outcome _ _ =>
    .of_quiet (quiet_after_read target outcome)

/-- Submitting a change changes the page of the target only. -/
theorem frame_submit (m : Manager) (target summary : String) (change : Change) (env : Surroundings) (s : Session) :
    m.FrameOf target env s (m.submit target summary change) :=
  (Session.Frame.query (Session.aside_save env s (m.siteOf target) ⟨m.settings.targetTitle target, summary, change⟩)).bind
    fun outcome _ _ => .of_quiet (quiet_after_save m target summary outcome)

/-- Committing a change changes the page of the target only. -/
theorem frame_commit (m : Manager) (target summary : String) (old new : List String) (env : Surroundings) (s : Session) :
    m.FrameOf target env s (m.commit target summary old new) := by
  unfold commit
  split
  · exact .of_quiet ((quiet_say _ _).bind fun _ => Quiet.pure false)
  · exact (frame_submit m target summary _ env s).bind fun _ _ _ => .of_quiet (Quiet.pure true)

/-- What is carried out under a key changes the pages that it changes without. -/
theorem frame_holding {α : Type} {target key : String} {r : Routine α} (h : m.FrameOf target env s r) :
    m.FrameOf target env s (holding key r) := by
  refine Session.Frame.bind (Session.Frame.of_quiet (Quiet.query rfl)) fun _ t ht => ?_
  obtain rfl : s = t := congrArg Prod.snd ht
  exact h.attempt.bind fun outcome _ _ => .of_quiet ((Quiet.query rfl).bind fun _ => Quiet.ofExcept outcome)

/-- Installing without the lock changes the page of the target only. -/
theorem frame_installUnlocked (m : Manager) (e : Entry) (env : Surroundings) (s : Session) :
    m.FrameOf e.target env s (m.installUnlocked e) := by
  refine (frame_fetch m e.target _ _ env s).bind fun page t _ => ?_
  refine (Session.Frame.of_quiet (quiet_isInstalled m page e)).bind fun found t _ => ?_
  cases found with
  | true => exact .of_quiet ((quiet_say _ _).bind fun _ => Quiet.pure false)
  | false =>
    refine (Session.Frame.of_quiet (quiet_annotate m e)).bind fun e' t hannotate => ?_
    refine (Session.Frame.of_quiet (Quiet.ofExcept _)).bind fun statement t _ => ?_
    rw [(annotate_ok hannotate).target]
    exact (frame_submit m e.target _ _ env t).bind fun _ _ _ => .of_quiet (Quiet.pure true)

/-- Uninstalling without the lock changes the page of the target only. -/
theorem frame_uninstallUnlocked (m : Manager) (e : Entry) (env : Surroundings) (s : Session) :
    m.FrameOf e.target env s (m.uninstallUnlocked e) := by
  refine (frame_fetch m e.target _ _ env s).bind fun page t _ => ?_
  refine (Session.Frame.of_quiet (Quiet.notes _)).bind fun _ t _ => ?_
  refine (Session.Frame.of_quiet (Quiet.ofExcept _)).bind fun removal t _ => ?_
  split
  · exact (Session.Frame.of_quiet (Quiet.notes _)).bind fun _ t _ => frame_commit m e.target _ _ _ env t
  · exact frame_commit m e.target _ _ _ env t

/-- Installing changes the page of the target only. -/
theorem frame_install (m : Manager) (e : Entry) (env : Surroundings) (s : Session) : m.FrameOf e.target env s (m.install e) :=
  frame_holding (frame_installUnlocked m e env s)

/-- Holding a key adds no state. -/
theorem mem_visited_holding {α : Type} {key : String} {r : Routine α} (h : u ∈ s.visited env (holding key r)) :
    u ∈ s.visited env r := by
  rcases List.mem_cons.mp h with rfl | h
  · cases r <;> exact List.mem_cons_self
  · have h : u ∈ s.visited env (r.attempt >>= fun outcome => Routine.query (.release key) >>= fun _ => Routine.ofExcept outcome) := h
    rcases Session.mem_visited_bind h with h | ⟨outcome, t, ht, h⟩
    · rwa [Session.visited_attempt] at h
    · -- The key is released in the state in which the routine has ended.
      rw [Session.run_attempt] at ht
      have hend := Session.run_mem_visited env s r
      rw [congrArg Prod.snd ht] at hend
      obtain rfl : u = t := by
        rcases List.mem_cons.mp h with rfl | h
        · rfl
        · exact List.mem_singleton.mp h
      exact hend

/-! ## Pages of two targets -/

/-- The pages of two targets are not the same one. -/
def DifferentPages (m : Manager) (s : Session) (target other : String) : Prop :=
  s.Elsewhere (m.siteOf target) (m.settings.targetTitle target) (m.siteOf other) (m.settings.targetTitle other)

/-- That two targets have different pages does not depend on their order. -/
theorem DifferentPages.symm {target other : String} (h : m.DifferentPages s target other) : m.DifferentPages s other target :=
  h.imp Ne.symm (And.imp_left Ne.symm)

/-- Whether two targets have different pages depends on the session only by whether there is a central wiki. -/
theorem DifferentPages.of_central {target other : String} (h : m.DifferentPages s target other)
    (hcentral : t.central = none ↔ s.central = none) : m.DifferentPages t target other :=
  h.imp_right (And.imp_right (mt hcentral.mp))

/-- A change of the page of another target leaves the page of a target as it is. -/
theorem pageText_of_aside {target other : String} (hdiff : m.DifferentPages s other target)
    (h : Session.Aside (m.siteOf other) (m.settings.targetTitle other) s t) : m.pageText t target = m.pageText s target :=
  h.text _ _ hdiff

end Manager

end UserScripts
