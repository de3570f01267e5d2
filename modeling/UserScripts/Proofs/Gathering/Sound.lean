import UserScripts.Gathering
import UserScripts.Proofs.Lock.Progress
import UserScripts.Proofs.Session.Visited

/-!
# Operations and their tickets

What holds of operations that run side by side, in whatever order they have their steps: each ticket of the lock belongs to a key
that its operation holds, or waits for, or has given back. So when no operation has a step any more, whoever has not ended waits
for a key that another one holds. Main statements: `step_eq_some_iff`, what a step can be, `Sound.step`, that it keeps the
invariant, and `Sound.exists_holder`.
-/

namespace UserScripts

/-! ## The lock -/

namespace Lock

variable {ι : Type} [DecidableEq ι] {name : ι → String} {l l' : Lock ι} {i owner : ι} {t : Ticket ι}

/-- An event changes no ticket of others. -/
theorem Sound.mem_of_effect (h : l.Sound name) (heffect : Effect name l owner l') (ht : t ∈ l'.tickets) (hne : t.owner ≠ owner) :
    t ∈ l.tickets := by
  have hfind := (h.effect heffect).ticket?_of_mem ht
  rw [heffect.ticket?_of_ne hne] at hfind
  exact (ticket?_eq_some hfind).1

/-- An event of one operation leaves the phases of the others as they are. -/
theorem Effect.phase?_of_ne (h : Effect name l owner l') (hne : i ≠ owner) : l'.phase? i = l.phase? i := by
  rw [phase?, h.ticket?_of_ne hne, phase?]

/-- An event of one operation is no call of another one. -/
theorem Effect.hasCalled_of_ne (h : Effect name l owner l') (hne : i ≠ owner) : l'.hasCalled i = l.hasCalled i := by
  rw [hasCalled, h.phase?_of_ne hne, hasCalled]

/-- An event of one operation lets no other one in or out. -/
theorem Effect.isInside_of_ne (h : Effect name l owner l') (hne : i ≠ owner) : l'.isInside i = l.isInside i := by
  rw [isInside, h.phase?_of_ne hne, isInside]

/-- Whoever has called has a ticket. -/
theorem exists_ticket_of_hasCalled (h : l.hasCalled i = true) : ∃ t, l.ticket? i = some t := by
  rw [hasCalled, phase?, Option.isSome_map, Option.isSome_iff_exists] at h
  exact h

/-- Inside is whoever has a ticket with that phase. -/
theorem isInside_iff : l.isInside i = true ↔ ∃ t, l.ticket? i = some t ∧ t.phase = .inside := by
  rw [isInside, phase?, decide_eq_true_eq, Option.map_eq_some_iff]

/-- A newly drawn ticket is inside or queued. -/
theorem ticket?_draw (h : l.ticket? owner = none) (key : String) : (l.draw owner key).ticket? owner = some (l.newTicket owner key) := by
  rw [draw, h, ticket?, List.find?_cons_of_pos]
  simp [newTicket]

/-- An operation that is inside ends with the given ending, and its ticket is released if the one before it is. -/
theorem ticket?_conclude (h : l.ticket? owner = some t) (hphase : t.phase = .inside) (ending : Ending) :
    (l.conclude owner ending).ticket? owner = some { t with phase := .ended ending, released := l.isFree t.previous } := by
  rw [conclude, h]
  simp only [hphase]
  exact ticket?_leave h _

end Lock

variable {α : Type}

namespace Gathering

variable {env : Surroundings} {g g' : Gathering α} {i j : Nat} {member : Member α}

/-! ## Steps -/

/-- What a step of the operation in a place can be. -/
inductive Step (env : Surroundings) (g : Gathering α) (i : Nat) : Gathering α → Prop where
  | call {member : Member α} {key : String} {next : Unit → Routine α} (at_ : g.members[i]? = some member)
      (rest : member.rest = .ask (.acquire key) next) (called : member.called = false) :
      Step env g i { g.put i { member with called := true } with lock := g.lock.draw ⟨i, member.count, key⟩ key }
  | enter {member : Member α} {key : String} {next : Unit → Routine α} (at_ : g.members[i]? = some member)
      (rest : member.rest = .ask (.acquire key) next) (called : member.called = true)
      (inside : (g.lock.turn ⟨i, member.count, key⟩).isInside ⟨i, member.count, key⟩ = true) :
      Step env g i { g.put i { rest := next (), count := member.count + 1, held := ⟨i, member.count, key⟩ :: member.held } with
        lock := g.lock.turn ⟨i, member.count, key⟩ }
  | release {member : Member α} {key : String} {next : Unit → Routine α} (at_ : g.members[i]? = some member)
      (rest : member.rest = .ask (.release key) next) : Step env g i (g.release i member next)
  | answer {member : Member α} {q : Query} {next : q.Answer → Routine α} (at_ : g.members[i]? = some member)
      (rest : member.rest = .ask q next) (about : q.isAboutKey = false) :
      Step env g i { g.put i { member with rest := next (g.session.answer env q).1 } with session := (g.session.answer env q).2 }

/-- Looking for a ticket that is inside is asking whether its owner is inside. -/
theorem any_inside (l : Lock Caller) (c : Caller) : (l.ticket? c).any (·.phase = .inside) = l.isInside c := by
  rw [Lock.isInside, Lock.phase?]
  cases l.ticket? c <;> simp

/-- What an operation can do in a step is exactly what `Step` lists. -/
theorem step_eq_some_iff : g.step env i = some g' ↔ Step env g i g' := by
  constructor
  · intro h
    rw [step] at h
    cases hat : g.members[i]? with
    | none => simp [hat] at h
    | some member =>
      simp only [hat] at h
      cases hrest : member.rest with
      | done outcome => simp [hrest] at h
      | ask q next =>
        rw [hrest] at h
        cases q with
        | acquire key =>
          simp only [acquire, any_inside] at h
          split at h
          · next hcalled =>
            split at h
            · next hinside =>
              rw [← Option.some.inj h]
              exact .enter hat hrest hcalled hinside
            · nomatch h
          · next hcalled =>
            rw [← Option.some.inj h]
            exact .call hat hrest (Bool.not_eq_true _ ▸ hcalled)
        | release key =>
          rw [← Option.some.inj h]
          exact .release hat hrest
        | _ =>
          rw [← Option.some.inj h]
          exact .answer hat hrest rfl
  · intro h
    cases h with
    | call hat hrest hcalled => simp [step, hat, hrest, acquire, hcalled]
    | enter hat hrest hcalled hinside => simp [step, hat, hrest, acquire, hcalled, any_inside, hinside]
    | release hat hrest => simp [step, hat, hrest]
    | @answer member q next hat hrest habout =>
      cases q <;> first | (simp [step, hat, hrest]; done) | cases habout

/-- An operation that can take a step is not halted. -/
theorem Step.ne_none (h : Step env g i g') : g.step env i ≠ none := by
  rw [step_eq_some_iff.mpr h]
  exact Option.some_ne_none g'

/-! ## Tickets -/

/-- How a ticket stands to the operation of its owner: the operation holds the key, or it has called for it and is about to get it,
or it has given it back. -/
inductive Stands (member : Member α) (t : Ticket Caller) : Prop where
  | holds (phase : t.phase = .inside) (mem : t.owner ∈ member.held)
  | waits {next : Unit → Routine α} (phase : t.phase = .inside ∨ t.phase = .queued none) (stays : t.cancelled = false)
      (called : member.called = true) (count : t.owner.count = member.count)
      (rest : member.rest = .ask (.acquire t.owner.key) next)
  | past (phase : t.phase = .ended .success) (count : t.owner.count < member.count)

/-- What holds of an operation in a place, given the lock. -/
structure Fits (lock : Lock Caller) (i : Nat) (member : Member α) : Prop where
  tickets : ∀ t ∈ lock.tickets, t.owner.member = i → Stands member t
  called : member.called = true →
    ∃ key next, member.rest = .ask (.acquire key) next ∧ lock.hasCalled ⟨i, member.count, key⟩ = true
  nodup : member.held.Nodup
  held : ∀ c ∈ member.held, c.member = i ∧ c.count < member.count ∧ lock.isInside c = true

/-- What holds of operations that run side by side, whatever has happened. -/
structure Sound (g : Gathering α) : Prop where
  lock : g.lock.Sound Caller.key
  places : ∀ t ∈ g.lock.tickets, t.owner.member < g.members.length
  fits : ∀ i member, g.members[i]? = some member → Fits g.lock i member

/-- Before the first step everything holds that `Sound` says. -/
theorem sound_ofRoutines (s : Session) (routines : List (Routine α)) : (ofRoutines s routines).Sound where
  lock := Lock.sound_empty Caller.key
  places t ht := nomatch ht
  fits i member hat := by
    obtain ⟨rest, -, rfl⟩ : ∃ rest, routines[i]? = some rest ∧ { rest } = member := by
      simpa [ofRoutines, Option.map_eq_some_iff] using hat
    exact ⟨nofun, nofun, List.nodup_nil, nofun⟩

/-- What happens to one operation and its ticket does not concern the others. -/
theorem Sound.next (h : g.Sound) {c : Caller} {lock : Lock Caller} {session : Session}
    (heffect : Lock.Effect Caller.key g.lock c lock) (hc : c.member = i) (hat : g.members[i]? = some member) {after : Member α}
    (hfits : Fits lock i after) : Sound { session, lock, members := g.members.set i after } where
  lock := h.lock.effect heffect
  places t ht := by
    rw [List.length_set]
    by_cases hne : t.owner = c
    · rw [hne, hc]
      exact (List.getElem?_eq_some_iff.mp hat).1
    · exact h.places t (h.lock.mem_of_effect heffect ht hne)
  fits j other hother := by
    by_cases hij : i = j
    · subst hij
      rw [List.getElem?_set_self (List.getElem?_eq_some_iff.mp hat).1] at hother
      exact Option.some.inj hother ▸ hfits
    · rw [List.getElem?_set_ne hij] at hother
      have hold := h.fits j other hother
      have hne : ∀ c' : Caller, c'.member = j → c' ≠ c := by
        rintro c' rfl rfl
        exact hij hc.symm
      refine ⟨fun t ht hj => ?_, fun hcalled => ?_, hold.nodup, fun c' hc' => ?_⟩
      · exact hold.tickets t (h.lock.mem_of_effect heffect ht (hne _ hj)) hj
      · obtain ⟨key, next, hrest, hhas⟩ := hold.called hcalled
        exact ⟨key, next, hrest, (heffect.hasCalled_of_ne (hne _ rfl)).trans hhas⟩
      · obtain ⟨hplace, hcount, hinside⟩ := hold.held c' hc'
        exact ⟨hplace, hcount, (heffect.isInside_of_ne (hne _ hplace)).trans hinside⟩

/-- An operation that has not called for the key that it asks for next has no ticket for it. -/
theorem Sound.ticket?_eq_none (h : g.Sound) (hat : g.members[i]? = some member) (hcalled : member.called = false) (key : String) :
    g.lock.ticket? ⟨i, member.count, key⟩ = none := by
  cases hfind : g.lock.ticket? ⟨i, member.count, key⟩ with
  | none => rfl
  | some t =>
    obtain ⟨ht, howner⟩ := Lock.ticket?_eq_some hfind
    cases (h.fits i member hat).tickets t ht (by rw [howner]) with
    | holds _ mem =>
      have hcount := ((h.fits i member hat).held _ mem).2.1
      rw [howner] at hcount
      exact absurd hcount (Nat.lt_irrefl _)
    | waits _ _ hcalled' =>
      rw [hcalled] at hcalled'
      nomatch hcalled'
    | past _ hcount =>
      rw [howner] at hcount
      exact absurd hcount (Nat.lt_irrefl _)

/-- The invariant holds after a call: the ticket that is drawn waits, or is to be taken up. -/
theorem Sound.call (h : g.Sound) {key : String} {next : Unit → Routine α} (hat : g.members[i]? = some member)
    (hrest : member.rest = .ask (.acquire key) next) (hcalled : member.called = false) :
    Sound { g.put i { member with called := true } with lock := g.lock.draw ⟨i, member.count, key⟩ key } := by
  have hnone := h.ticket?_eq_none hat hcalled key
  have heffect : Lock.Effect Caller.key g.lock ⟨i, member.count, key⟩ (g.lock.draw ⟨i, member.count, key⟩ key) :=
    Lock.effect_step Caller.key g.lock ⟨⟨i, member.count, key⟩, .call⟩
  have hdrawn := Lock.ticket?_draw hnone key
  have hold := h.fits i member hat
  refine h.next heffect rfl hat ⟨fun t ht hplace => ?_, fun _ => ⟨key, next, hrest, ?_⟩, hold.nodup, fun c hc => ?_⟩
  · by_cases hne : t.owner = ⟨i, member.count, key⟩
    · have hfind := (h.lock.effect heffect).ticket?_of_mem ht
      rw [hne, hdrawn] at hfind
      obtain rfl := Option.some.inj hfind
      refine .waits ?_ rfl rfl rfl hrest
      simp only [Lock.newTicket]
      split
      · exact Or.inl rfl
      · exact Or.inr rfl
    · cases hold.tickets t (h.lock.mem_of_effect heffect ht hne) hplace with
      | holds phase mem => exact .holds phase mem
      | waits phase stays _ count rest => exact .waits phase stays rfl count rest
      | past phase count => exact .past phase count
  · rw [Lock.hasCalled, Lock.phase?, hdrawn]
    rfl
  · obtain ⟨hplace, hcount, hinside⟩ := hold.held c hc
    refine ⟨hplace, hcount, (heffect.isInside_of_ne ?_).trans hinside⟩
    rintro rfl
    exact Nat.lt_irrefl _ hcount

/-- The invariant holds after an operation takes up its turn: its ticket is inside, and the key is held. -/
theorem Sound.enter (h : g.Sound) {key : String} {next : Unit → Routine α} (hat : g.members[i]? = some member)
    (hrest : member.rest = .ask (.acquire key) next)
    (hinside : (g.lock.turn ⟨i, member.count, key⟩).isInside ⟨i, member.count, key⟩ = true) :
    Sound { g.put i { rest := next (), count := member.count + 1, held := ⟨i, member.count, key⟩ :: member.held } with
      lock := g.lock.turn ⟨i, member.count, key⟩ } := by
  have heffect : Lock.Effect Caller.key g.lock ⟨i, member.count, key⟩ (g.lock.turn ⟨i, member.count, key⟩) :=
    Lock.effect_step Caller.key g.lock ⟨⟨i, member.count, key⟩, .turn⟩
  have hold := h.fits i member hat
  have hnew : ⟨i, member.count, key⟩ ∉ member.held := fun hmem => Nat.lt_irrefl _ (hold.held _ hmem).2.1
  refine h.next heffect rfl hat ⟨fun t ht hplace => ?_, nofun, List.nodup_cons.mpr ⟨hnew, hold.nodup⟩, fun c hc => ?_⟩
  · by_cases hne : t.owner = ⟨i, member.count, key⟩
    · obtain ⟨t', hfind', hphase⟩ := Lock.isInside_iff.mp hinside
      have hfind := (h.lock.effect heffect).ticket?_of_mem ht
      rw [hne, hfind'] at hfind
      obtain rfl := Option.some.inj hfind
      exact .holds hphase (hne ▸ List.mem_cons_self)
    · cases hold.tickets t (h.lock.mem_of_effect heffect ht hne) hplace with
      | holds phase mem => exact .holds phase (List.mem_cons_of_mem _ mem)
      | waits _ _ _ count rest =>
        -- The operation waits for one key only, and the ticket for it is the one that has entered.
        rw [hrest] at rest
        have hkey : key = t.owner.key := Query.acquire.inj (Routine.ask.inj rest).1
        exact absurd (Caller.ext hplace count hkey.symm) hne
      | past phase count => exact .past phase (Nat.lt_succ_of_lt count)
  · rcases List.mem_cons.mp hc with rfl | hc
    · exact ⟨rfl, Nat.lt_succ_self _, hinside⟩
    · obtain ⟨hplace, hcount, hin⟩ := hold.held c hc
      refine ⟨hplace, Nat.lt_succ_of_lt hcount, (heffect.isInside_of_ne ?_).trans hin⟩
      rintro rfl
      exact hnew hc

/-- An operation that asks for no key goes on, and its tickets stay as they are. -/
theorem Fits.goOn (h : Fits g.lock i member) {q : Query} {next : q.Answer → Routine α} {rest : Routine α}
    (hrest : member.rest = .ask q next) (hq : ∀ key, q ≠ .acquire key) : Fits g.lock i { member with rest } where
  tickets t ht hplace := by
    cases h.tickets t ht hplace with
    | holds phase mem => exact .holds phase mem
    | waits _ _ _ _ rest' =>
      rw [hrest] at rest'
      exact absurd (Routine.ask.inj rest').1 (hq _)
    | past phase count => exact .past phase count
  called hcalled := by
    obtain ⟨key, next', hrest', -⟩ := h.called hcalled
    rw [hrest] at hrest'
    exact absurd (Routine.ask.inj hrest').1 (hq _)
  nodup := h.nodup
  held := h.held

/-- The invariant holds after a key is given back: its ticket has ended. -/
theorem Sound.release (h : g.Sound) {key : String} {next : Unit → Routine α} (hat : g.members[i]? = some member)
    (hrest : member.rest = .ask (.release key) next) : (g.release i member next).Sound := by
  have hold : Fits g.lock i { member with rest := next () } := (h.fits i member hat).goOn hrest nofun
  rw [Gathering.release]
  cases hheld : member.held with
  | nil =>
    rw [hheld] at hold
    exact h.next (c := ⟨i, member.count, key⟩) .nothing rfl hat hold
  | cons c held =>
    have hmem : c ∈ member.held := hheld ▸ List.mem_cons_self
    obtain ⟨hplace, hcount, hinside⟩ := hold.held c hmem
    have hnodup : c ∉ held ∧ held.Nodup := List.nodup_cons.mp (hheld ▸ hold.nodup)
    have heffect : Lock.Effect Caller.key g.lock c (g.lock.conclude c .success) :=
      Lock.effect_step Caller.key g.lock ⟨c, .finish .success⟩
    refine h.next heffect hplace hat ⟨fun t ht hi => ?_, fun hcalled => ?_, hnodup.2, fun c' hc' => ?_⟩
    · by_cases hne : t.owner = c
      · obtain ⟨u, hu, hphase⟩ := Lock.isInside_iff.mp hinside
        have hfind := (h.lock.effect heffect).ticket?_of_mem ht
        rw [hne, Lock.ticket?_conclude hu hphase] at hfind
        obtain rfl := Option.some.inj hfind
        exact .past rfl (hne ▸ hcount)
      · cases hold.tickets t (h.lock.mem_of_effect heffect ht hne) hi with
        | holds phase mem =>
          refine .holds phase ?_
          rw [hheld] at mem
          exact (List.mem_cons.mp mem).resolve_left hne
        | waits phase stays called count rest => exact .waits phase stays called count rest
        | past phase count => exact .past phase count
    · obtain ⟨key', next', hrest', hhas⟩ := hold.called hcalled
      refine ⟨key', next', hrest', (heffect.hasCalled_of_ne ?_).trans hhas⟩
      rintro rfl
      exact Nat.lt_irrefl _ hcount
    · obtain ⟨hplace', hcount', hinside'⟩ := hold.held c' (hheld ▸ List.mem_cons_of_mem _ hc')
      refine ⟨hplace', hcount', (heffect.isInside_of_ne ?_).trans hinside'⟩
      rintro rfl
      exact hnodup.1 hc'

/-- A step keeps what holds of operations that run side by side. -/
theorem Sound.step (h : g.Sound) (hstep : Step env g i g') : g'.Sound := by
  cases hstep with
  | call hat hrest hcalled => exact h.call hat hrest hcalled
  | enter hat hrest _ hinside => exact h.enter hat hrest hinside
  | release hat hrest => exact h.release hat hrest
  | @answer member q next hat hrest habout =>
    have hq : ∀ key, q ≠ .acquire key := by
      rintro key rfl
      cases habout
    have hfits : Fits g.lock i { member with rest := next (g.session.answer env q).1 } := (h.fits i member hat).goOn hrest hq
    exact h.next (c := ⟨i, member.count, ""⟩) .nothing rfl hat hfits

/-- What every step keeps is kept by runs. -/
theorem run_induction {P : Gathering α → Prop} (hstep : ∀ g i g', P g → Step env g i g' → P g') (h : P g) (order : List Nat) :
    P (g.run env order) := by
  induction order generalizing g with
  | nil => exact h
  | cons i order ih =>
    rw [run, List.foldl_cons]
    refine ih ?_
    cases hnext : g.step env i with
    | none => exact h
    | some g' => exact hstep g i g' h (step_eq_some_iff.mp hnext)

/-- The run lemma: the invariant holds after any order of steps. -/
theorem Sound.run (h : g.Sound) (env : Surroundings) (order : List Nat) : (g.run env order).Sound :=
  run_induction (P := Sound) (fun _ _ _ h hstep => h.step hstep) h order

/-! ## Who waits for whom -/

/-- The operations are stuck: not all of them have ended, and none has a step. -/
def Stuck (env : Surroundings) (g : Gathering α) : Prop :=
  g.isOver = false ∧ ∀ i, g.step env i = none

/-- Whether operations are stuck can be read off the members one by one. -/
theorem stuck_iff : Stuck env g ↔ g.isOver = false ∧ ∀ i < g.members.length, (g.step env i).isNone = true := by
  simp only [Option.isNone_iff_eq_none]
  refine and_congr_right fun _ => ⟨fun h i _ => h i, fun h i => ?_⟩
  by_cases hi : i < g.members.length
  · exact h i hi
  · rw [step, List.getElem?_eq_none (Nat.le_of_not_lt hi)]

/-- Only finitely many places need to be looked at. -/
instance (env : Surroundings) (g : Gathering α) : Decidable (Stuck env g) :=
  decidable_of_iff _ stuck_iff.symm

/-- The operation in a place waits for a key. -/
def Wants (g : Gathering α) (i : Nat) (key : String) : Prop :=
  ∃ member next, g.members[i]? = some member ∧ member.rest = .ask (.acquire key) next ∧ member.called = true

/-- The operation in a place holds a key. -/
def HoldsKey (g : Gathering α) (i : Nat) (key : String) : Prop :=
  ∃ member, g.members[i]? = some member ∧ ∃ c ∈ member.held, Lock.keyOf c.key = Lock.keyOf key

/-- An operation that has no step has ended or waits for a key. -/
theorem wants_of_step_eq_none (h : g.step env i = none) (hat : g.members[i]? = some member) :
    (∃ outcome, member.rest = .done outcome) ∨ ∃ key, g.Wants i key := by
  cases hrest : member.rest with
  | done outcome => exact Or.inl ⟨outcome, rfl⟩
  | ask q next =>
    refine Or.inr ?_
    by_cases hq : ∃ key, q = .acquire key
    · obtain ⟨key, rfl⟩ := hq
      refine ⟨key, member, next, hat, hrest, ?_⟩
      by_contra hcalled
      exact (Step.call hat hrest (Bool.not_eq_true _ ▸ hcalled)).ne_none h
    · exfalso
      by_cases hr : ∃ key, q = .release key
      · obtain ⟨key, rfl⟩ := hr
        exact (Step.release hat hrest).ne_none h
      · have habout : q.isAboutKey = false := by
          cases q <;> first | rfl | exact absurd ⟨_, rfl⟩ hq | exact absurd ⟨_, rfl⟩ hr
        exact (Step.answer hat hrest habout).ne_none h

/-- The member to which a ticket belongs. -/
theorem Sound.exists_member (h : g.Sound) {t : Ticket Caller} (ht : t ∈ g.lock.tickets) :
    ∃ member, g.members[t.owner.member]? = some member ∧ Stands member t :=
  ⟨_, List.getElem?_eq_getElem (h.places t ht), (h.fits _ _ (List.getElem?_eq_getElem (h.places t ht))).tickets t ht rfl⟩

/-- If no operation has a step, then a ticket that lets its operation in is one for a key that the operation holds. -/
theorem Stands.mem_held {t : Ticket Caller} (h : Stands member t) (hnone : ∀ i, g.step env i = none)
    (hat : g.members[t.owner.member]? = some member) (hinside : (g.lock.turn t.owner).isInside t.owner = true)
    (hopen : t.phase.isOver = false) : t.owner ∈ member.held := by
  cases h with
  | holds _ mem => exact mem
  | waits _ _ called count rest =>
    have howner : t.owner = ⟨t.owner.member, member.count, t.owner.key⟩ := Caller.ext rfl count rfl
    rw [howner] at hinside
    exact absurd (hnone _) (Step.enter hat rest called hinside).ne_none
  | past phase _ =>
    rw [phase] at hopen
    cases hopen

/-- If no operation has a step, nobody has anything to take notice of. -/
theorem Sound.settled (h : g.Sound) (hnone : ∀ i, g.step env i = none) : g.lock.Settled := by
  refine h.lock.settled_iff.mpr fun t ht => ?_
  obtain ⟨member, hat, hstands⟩ := h.exists_member ht
  cases hstands with
  | holds phase _ => simp only [Lock.isPending, phase]
  | past phase _ =>
    obtain ⟨newer, older, hsplit⟩ := List.append_of_mem (Lock.mem_onKey.mpr ⟨ht, rfl⟩)
    have hreleased := (h.lock.fits hsplit).1.left .success phase
    simp [Lock.isPending, phase, hreleased]
  | waits phase stays called count rest =>
    rcases phase with phase | phase
    · simp only [Lock.isPending, phase]
    · -- Otherwise its turn would let the operation in.
      by_contra hpending
      rw [Bool.not_eq_false] at hpending
      have hfind := h.lock.ticket?_of_mem ht
      have hturn : g.lock.turn t.owner = g.lock.put { t with phase := .inside } := by
        simp [Lock.turn, hfind, hpending, Lock.proceed, phase, stays]
      have hinside : (g.lock.turn t.owner).isInside t.owner = true := by
        rw [hturn]
        exact Lock.isInside_iff.mpr ⟨_, Lock.ticket?_put_self hfind rfl, rfl⟩
      have hmem := Stands.mem_held (.waits (Or.inr phase) stays called count rest) hnone hat hinside (by rw [phase]; rfl)
      have hless := ((h.fits _ _ hat).held _ hmem).2.1
      rw [count] at hless
      exact Nat.lt_irrefl _ hless

/-- If no operation has a step, the key for which one waits is held. -/
theorem Sound.exists_holder (h : g.Sound) (hnone : ∀ i, g.step env i = none) {key : String} (hwants : g.Wants i key) :
    ∃ j, g.HoldsKey j key := by
  obtain ⟨member, next, hat, hrest, hcalled⟩ := hwants
  have hsettled := h.settled hnone
  have hin : ∀ u ∈ g.lock.tickets, u.phase = .inside → (g.lock.turn u.owner).isInside u.owner = true := by
    intro u hu hphase
    rw [hsettled]
    exact Lock.isInside_iff.mpr ⟨u, h.lock.ticket?_of_mem hu, hphase⟩
  -- The ticket of the operation that waits is not over, so the first one on the key that is not over is inside.
  obtain ⟨key', next', hrest', hhas⟩ := (h.fits i member hat).called hcalled
  rw [hrest] at hrest'
  obtain rfl : key = key' := Query.acquire.inj (Routine.ask.inj hrest').1
  obtain ⟨t, hfind⟩ := Lock.exists_ticket_of_hasCalled hhas
  obtain ⟨ht, howner⟩ := Lock.ticket?_eq_some hfind
  have hopen : t.phase.isOver = false := by
    cases (h.fits i member hat).tickets t ht (by rw [howner]) with
    | holds phase _ => rw [phase]; rfl
    | waits phase _ _ _ _ => rcases phase with phase | phase <;> rw [phase] <;> rfl
    | past _ count =>
      rw [howner] at count
      exact absurd count (Nat.lt_irrefl _)
  have hkey : t.key = Lock.keyOf key := by rw [h.lock.keyed t ht, howner]
  obtain ⟨u, hfirst⟩ := Option.isSome_iff_exists.mp
    ((Lock.isSome_earliest?_iff g.lock (Lock.keyOf key)).mpr ⟨t, Lock.mem_onKey.mpr ⟨ht, hkey⟩, hopen⟩)
  have hinside := h.lock.inside_of_earliest? hsettled hfirst
  obtain ⟨-, newer, older, hsplit, -⟩ := Lock.earliest?_eq_some hfirst
  obtain ⟨hu, hukey⟩ := Lock.mem_onKey.mp (hsplit ▸ List.mem_append_right newer List.mem_cons_self)
  obtain ⟨holder, hholder, hstands⟩ := h.exists_member hu
  have hmem := hstands.mem_held hnone hholder (hin u hu hinside) (by rw [hinside]; rfl)
  exact ⟨u.owner.member, holder, hholder, u.owner, hmem, (h.lock.keyed u hu).symm.trans hukey⟩

end Gathering

end UserScripts
