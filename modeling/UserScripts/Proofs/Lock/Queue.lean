import Mathlib.Data.List.Nodup
import UserScripts.Lock

/-!
# The queue of a key

What holds of the tickets of a key whatever has happened to the lock. Each ticket names the one before it unless all before it are
released, and whoever has entered has found all before it released. Main statements: `effect_step`, which says everything that an
event can do, `Sound.effect`, that the invariant is kept, and `sound_run`.
-/

namespace UserScripts

namespace Phase

/-- Whether the action has been entered. -/
def hasEntered : Phase → Bool
  | .inside => true
  | .ended _ => true
  | _ => false

/-- Whether the operation has succeeded, failed or been cancelled. -/
def isOver : Phase → Bool
  | .ended _ => true
  | .abandoned => true
  | _ => false

end Phase

variable {ι : Type}

/-! ## What can happen to a ticket -/

/-- What can happen to a ticket after it has been drawn; `free` says whether anything before it is left to wait for. -/
inductive Ticket.Moves (free : Bool) (t : Ticket ι) : Ticket ι → Prop where
  | decided {ending : Ending} (h : t.phase = .queued none) : Moves free t { t with phase := .queued (some ending) }
  | stopped {ending : Option Ending} (h : t.phase = .queued ending) : Moves free t { t with cancelled := true }
  | entered (h : t.phase = .queued none) (hcancelled : t.cancelled = false) (hfree : free = true) :
      Moves free t { t with phase := .inside }
  | passed {ending : Ending} (h : t.phase = .queued (some ending)) (hcancelled : t.cancelled = false) (hfree : free = true) :
      Moves free t { t with phase := .ended ending, released := free }
  | finished {ending : Ending} (h : t.phase = .inside) : Moves free t { t with phase := .ended ending, released := free }
  | abandoned {ending : Option Ending} (h : t.phase = .queued ending) (hcancelled : t.cancelled = true) :
      Moves free t { t with phase := .abandoned, released := free }
  | released (h : t.phase.isOver = true) (hfree : free = true) : Moves free t { t with released := true }

namespace Lock

/-- The tickets for a key. -/
def onKey (key : String) (tickets : List (Ticket ι)) : List (Ticket ι) :=
  tickets.filter (·.key == key)

/-- Whoever is to be waited for has the newest of the tickets; if there is nobody, all tickets are released. -/
def Follows (tickets : List (Ticket ι)) (previous : Option ι) : Prop :=
  previous = tickets.head?.map Ticket.owner ∨ previous = none ∧ ∀ u ∈ tickets, u.released = true

end Lock

/-- What holds of a ticket, given the older ones of its key. -/
structure Ticket.Fits (t : Ticket ι) (older : List (Ticket ι)) : Prop where
  follows : Lock.Follows older t.previous
  /-- Nobody enters, and nobody lets others enter, before all older tickets are released. -/
  order : t.phase.hasEntered = true ∨ t.released = true → ∀ u ∈ older, u.released = true
  gone : t.released = true → t.phase.isOver = true
  left : ∀ ending, t.phase = .ended ending → t.released = true
  cancelled : t.cancelled = true → t.phase.hasEntered = false

namespace Lock

/-- A list in which every ticket fits to those after it. -/
inductive Queue : List (Ticket ι) → Prop where
  | nil : Queue []
  | cons {t : Ticket ι} {older : List (Ticket ι)} (fits : t.Fits older) (queue : Queue older) : Queue (t :: older)

variable [DecidableEq ι]

/-- What holds of a lock whatever has happened. -/
structure Sound (name : ι → String) (l : Lock ι) : Prop where
  nodup : (l.tickets.map Ticket.owner).Nodup
  keyed : ∀ t ∈ l.tickets, t.key = keyOf (name t.owner)
  queue : ∀ key, Queue (onKey key l.tickets)
  tail : ∀ key, Follows (onKey key l.tickets) (l.tails.get? key)

/-- What an event does to a lock: nothing, or a ticket is drawn, or something happens to the ticket of its owner. The key of a
ticket goes out of use only if it is the newest one and is released. -/
inductive Effect (name : ι → String) (l : Lock ι) (owner : ι) : Lock ι → Prop where
  | nothing : Effect name l owner l
  | drawn (h : l.ticket? owner = none) : Effect name l owner
      { tickets := l.newTicket owner (name owner) :: l.tickets, tails := l.tails.put (keyOf (name owner)) owner }
  | moved {t t' : Ticket ι} (h : l.ticket? owner = some t) (hmoves : t.Moves (l.isFree t.previous) t') {tails : Keyed String ι}
      (htails : tails = l.tails ∨ t'.released = true ∧ l.tails.get? t.key = some t.owner ∧ tails = l.tails.erase t.key) :
      Effect name l owner { l.put t' with tails }

/-- Replacing the ticket of an owner by what it can become is an effect of its owner. -/
theorem effect_put {name : ι → String} {l : Lock ι} {owner : ι} {t t' : Ticket ι} (h : l.ticket? owner = some t)
    (hmoves : t.Moves (l.isFree t.previous) t') : Effect name l owner (l.put t') :=
  .moved h hmoves (Or.inl rfl)

/-- Leaving is an effect of the owner. -/
theorem effect_leave {name : ι → String} {l : Lock ι} {owner : ι} {t : Ticket ι} {phase : Phase} (h : l.ticket? owner = some t)
    (hmoves : t.Moves (l.isFree t.previous) { t with phase, released := l.isFree t.previous }) :
    Effect name l owner (l.leave t phase) := by
  refine .moved h hmoves ?_
  split
  · next hboth =>
    rw [Bool.and_eq_true, decide_eq_true_eq] at hboth
    exact Or.inr ⟨hboth.1, hboth.2, rfl⟩
  · exact Or.inl rfl

/-- Who has something to take notice of waits, or has left before the ticket could be released. -/
theorem isPending_cases {l : Lock ι} {t : Ticket ι} (h : l.isPending t = true) :
    (∃ ending, t.phase = .queued ending ∧ (t.cancelled = true ∨ l.isFree t.previous = true)) ∨
      (t.phase.isOver = true ∧ t.released = false ∧ l.isFree t.previous = true) := by
  unfold isPending at h
  split at h
  · next ending hphase => exact Or.inl ⟨ending, hphase, Bool.or_eq_true_iff.mp h⟩
  · cases h
  · next hqueued hinside =>
    rw [Bool.and_eq_true, Bool.not_eq_true'] at h
    refine Or.inr ⟨?_, h⟩
    cases hphase : t.phase with
    | queued ending => exact absurd hphase (hqueued ending)
    | inside => exact absurd hphase hinside
    | ended ending => rfl
    | abandoned => rfl

/-- Taking notice of something is an effect of the owner. -/
theorem effect_proceed {name : ι → String} {l : Lock ι} {owner : ι} {t : Ticket ι} (h : l.ticket? owner = some t)
    (hpending : l.isPending t = true) : Effect name l owner (l.proceed t) := by
  unfold proceed
  split
  · next ending hphase =>
    split
    · next hcancelled => exact effect_leave h (.abandoned hphase hcancelled)
    · next hcancelled =>
      have hfree : l.isFree t.previous = true := by
        rcases isPending_cases hpending with ⟨_, _, hor⟩ | ⟨_, _, hfree⟩
        · exact hor.resolve_left hcancelled
        · exact hfree
      rw [Bool.not_eq_true] at hcancelled
      split
      · exact effect_put h (.entered hphase hcancelled hfree)
      · exact effect_leave h (.passed hphase hcancelled hfree)
  · next hqueued =>
    rcases isPending_cases hpending with ⟨ending, hphase, _⟩ | ⟨hover, _, hfree⟩
    · exact absurd hphase (hqueued ending)
    · exact effect_put h (.released hover hfree)

/-- Everything that an event can do. -/
theorem effect_step (name : ι → String) (l : Lock ι) (e : Event ι) : Effect name l e.owner (l.step name e) := by
  unfold step
  cases e.act with
  | call =>
    simp only [draw]
    cases h : l.ticket? e.owner with
    | none => exact .drawn h
    | some t => exact .nothing
  | finish ending =>
    simp only [conclude]
    cases h : l.ticket? e.owner with
    | none => exact .nothing
    | some t =>
      simp only
      split
      · next hphase => exact effect_put h (.decided hphase)
      · next hphase => exact effect_leave h (.finished hphase)
      · exact .nothing
  | cancel =>
    simp only [stop]
    cases h : l.ticket? e.owner with
    | none => exact .nothing
    | some t =>
      simp only
      split
      · next hphase => exact effect_put h (.stopped hphase)
      · next hphase => exact effect_leave h (.finished hphase)
      · exact .nothing
  | turn =>
    simp only [turn]
    cases h : l.ticket? e.owner with
    | none => exact .nothing
    | some t =>
      simp only
      split
      · next hpending => exact effect_proceed h hpending
      · exact .nothing

end Lock

/-! ## Tickets that move -/

namespace Ticket

variable {free : Bool} {t t' : Ticket ι} {older : List (Ticket ι)}

/-- What happens to a ticket leaves its owner. -/
theorem Moves.owner (h : t.Moves free t') : t'.owner = t.owner := by
  cases h <;> rfl

/-- What happens to a ticket leaves its key. -/
theorem Moves.key (h : t.Moves free t') : t'.key = t.key := by
  cases h <;> rfl

/-- What happens to a ticket takes no cancellation back. -/
theorem Moves.cancelled (h : t.Moves free t') (hcancelled : t.cancelled = true) : t'.cancelled = true := by
  cases h <;> first | rfl | exact hcancelled

/-- A ticket that fits stays released. -/
theorem Moves.stays_released (h : t.Moves free t') (hfits : t.Fits older) (hreleased : t.released = true) : t'.released = true := by
  have hover := hfits.gone hreleased
  cases h with
  | decided hphase => exact hreleased
  | stopped hphase => exact hreleased
  | entered hphase => exact hreleased
  | passed hphase _ hfree => exact hfree
  | finished hphase => rw [hphase] at hover; cases hover
  | abandoned hphase => rw [hphase] at hover; cases hover
  | released => rfl

/-- Whatever happens to a ticket, it fits. -/
theorem Fits.moves (h : t.Fits older) (hfree : free = true ↔ ∀ u ∈ older, u.released = true) (hmoves : t.Moves free t') :
    t'.Fits older := by
  have hwaits : ∀ {ending}, t.phase = .queued ending → t.released = false := by
    intro ending hphase
    refine Bool.eq_false_iff.mpr fun hreleased => ?_
    have hover := h.gone hreleased
    rw [hphase] at hover
    cases hover
  cases hmoves with
  | decided hphase =>
    have hreleased := hwaits hphase
    exact ⟨h.follows, by simp [Phase.hasEntered, hreleased], by simp [hreleased], fun _ hended => (by cases hended), fun _ => rfl⟩
  | stopped hphase =>
    refine ⟨h.follows, h.order, h.gone, h.left, fun _ => ?_⟩
    rw [show ({ t with cancelled := true } : Ticket ι).phase = t.phase from rfl, hphase]
    rfl
  | entered hphase hcancelled hthrough =>
    have hreleased := hwaits hphase
    exact ⟨h.follows, fun _ => hfree.mp hthrough, by simp [hreleased], fun _ hended => (by cases hended), by simp [hcancelled]⟩
  | passed hphase hcancelled hthrough =>
    exact ⟨h.follows, fun _ => hfree.mp hthrough, fun _ => rfl, fun _ _ => hthrough, by simp [hcancelled]⟩
  | finished hphase =>
    -- Whoever is inside has found all older tickets released.
    have hbefore := h.order (Or.inl (by rw [hphase]; rfl))
    refine ⟨h.follows, fun _ => hbefore, fun _ => rfl, fun _ _ => hfree.mpr hbefore, fun hcancelled => ?_⟩
    have hnot := h.cancelled hcancelled
    rw [hphase] at hnot
    cases hnot
  | abandoned hphase =>
    exact ⟨h.follows, fun hor => hfree.mp (hor.resolve_left Bool.false_ne_true), fun _ => rfl, fun _ hended => (by cases hended),
      fun _ => rfl⟩
  | released hover hthrough =>
    exact ⟨h.follows, fun _ => hfree.mp hthrough, fun _ => hover, fun _ _ => rfl, h.cancelled⟩

end Ticket

namespace Lock

/-! ## Lists of tickets in which one has moved -/

/-- Whom to wait for stays the same after the tickets have changed, if their owners stay and released tickets stay released. -/
theorem Follows.map {f : Ticket ι → Ticket ι} {tickets : List (Ticket ι)} {previous : Option ι} (h : Follows tickets previous)
    (howner : ∀ u ∈ tickets, (f u).owner = u.owner) (hreleased : ∀ u ∈ tickets, u.released = true → (f u).released = true) :
    Follows (tickets.map f) previous := by
  rcases h with rfl | ⟨rfl, hall⟩
  · cases tickets with
    | nil => exact Or.inl rfl
    | cons u rest => exact Or.inl (congrArg some (howner u List.mem_cons_self).symm)
  · refine Or.inr ⟨rfl, fun u hu => ?_⟩
    obtain ⟨v, hv, rfl⟩ := List.mem_map.mp hu
    exact hreleased v hv (hall v hv)

/-- A ticket still fits after something has happened to older ones. -/
theorem fits_map {f : Ticket ι → Ticket ι} {t : Ticket ι} {older : List (Ticket ι)} (h : t.Fits older)
    (howner : ∀ u ∈ older, (f u).owner = u.owner) (hreleased : ∀ u ∈ older, u.released = true → (f u).released = true) :
    t.Fits (older.map f) where
  follows := h.follows.map howner hreleased
  order hor u hu := by
    obtain ⟨v, hv, rfl⟩ := List.mem_map.mp hu
    exact hreleased v hv (h.order hor v hv)
  gone := h.gone
  left := h.left
  cancelled := h.cancelled

/-- The older part of a queue is a queue. -/
theorem Queue.append_right {newer older : List (Ticket ι)} (h : Queue (newer ++ older)) : Queue older := by
  induction newer with
  | nil => exact h
  | cons t newer ih =>
    cases h with
    | cons _ hqueue => exact ih hqueue

variable [DecidableEq ι] {name : ι → String} {l : Lock ι} {t t' : Ticket ι}

/-- A queue stays one if a ticket makes place for one that fits there and is not held back. -/
theorem Queue.replace {tickets : List (Ticket ι)} (h : Queue tickets) (hnodup : (tickets.map Ticket.owner).Nodup)
    (hfits : ∀ newer t older, tickets = newer ++ t :: older → t.owner = t'.owner →
      t'.Fits older ∧ (t.released = true → t'.released = true)) :
    Queue (tickets.map fun u => if u.owner = t'.owner then t' else u) := by
  induction h with
  | nil => exact .nil
  | @cons u rest hu hqueue ih =>
    rw [List.map_cons, List.nodup_cons] at hnodup
    rw [List.map_cons]
    by_cases hsame : u.owner = t'.owner
    · have hrest : rest.map (fun v => if v.owner = t'.owner then t' else v) = rest := by
        refine (List.map_congr_left fun v hv => if_neg fun hv' => hnodup.1 ?_).trans (List.map_id rest)
        rw [hsame, ← hv']
        exact List.mem_map_of_mem hv
      rw [if_pos hsame, hrest]
      exact .cons (hfits [] u rest rfl hsame).1 hqueue
    · rw [if_neg hsame]
      refine .cons (fits_map hu (fun v _ => ?_) fun v hv hreleased => ?_) (ih hnodup.2 fun newer v older hrest hv => ?_)
      · split
        · next hv' => exact hv'.symm
        · rfl
      · split
        · next hv' =>
          obtain ⟨newer, older, hrest⟩ := List.append_of_mem hv
          exact (hfits (u :: newer) v older (by rw [hrest]; rfl) hv').2 hreleased
        · exact hreleased
      · exact hfits (u :: newer) v older (by rw [hrest]; rfl) hv

/-! ## Tickets of a lock -/

/-- The ticket that is found for an owner is one of the tickets, and it is the owner's. -/
theorem ticket?_eq_some {owner : ι} (h : l.ticket? owner = some t) : t ∈ l.tickets ∧ t.owner = owner :=
  ⟨List.mem_of_find?_eq_some h, by simpa using List.find?_some h⟩

omit [DecidableEq ι] in
/-- No owner has two tickets. -/
theorem Sound.eq_of_owner (h : l.Sound name) {u : Ticket ι} (ht : t ∈ l.tickets) (hu : u ∈ l.tickets) (heq : t.owner = u.owner) :
    t = u :=
  List.inj_on_of_nodup_map h.nodup ht hu heq

/-- Every ticket is found by its owner. -/
theorem Sound.ticket?_of_mem (h : l.Sound name) (ht : t ∈ l.tickets) : l.ticket? t.owner = some t := by
  cases hfind : l.ticket? t.owner with
  | none => exact absurd (decide_eq_true rfl) (List.find?_eq_none.mp hfind t ht)
  | some u =>
    obtain ⟨hu, howner⟩ := ticket?_eq_some hfind
    rw [h.eq_of_owner hu ht howner]

omit [DecidableEq ι] in
/-- The tickets for a key, with one more at the front. -/
theorem onKey_cons (key : String) (t : Ticket ι) (tickets : List (Ticket ι)) :
    onKey key (t :: tickets) = if t.key = key then t :: onKey key tickets else onKey key tickets := by
  rw [onKey, List.filter_cons]
  simp only [beq_iff_eq]
  rfl

omit [DecidableEq ι] in
/-- The tickets for a key in two parts. -/
theorem onKey_append (key : String) (newer older : List (Ticket ι)) :
    onKey key (newer ++ older) = onKey key newer ++ onKey key older :=
  List.filter_append newer older

omit [DecidableEq ι] in
/-- The tickets for a key are those that name it. -/
theorem mem_onKey {key : String} {tickets : List (Ticket ι)} : t ∈ onKey key tickets ↔ t ∈ tickets ∧ t.key = key := by
  rw [onKey, List.mem_filter, beq_iff_eq]

/-- Nothing is left to wait for behind the tickets of a key if and only if all of them are released. -/
theorem Sound.isFree_iff (h : l.Sound name) {older : List (Ticket ι)} {previous : Option ι} (hmem : ∀ u ∈ older, u ∈ l.tickets)
    (hqueue : Queue older) (hfollows : Follows older previous) :
    l.isFree previous = true ↔ ∀ u ∈ older, u.released = true := by
  rcases hfollows with rfl | ⟨rfl, hall⟩
  · cases hqueue with
    | nil => exact ⟨fun _ => nofun, fun _ => rfl⟩
    | @cons u rest hu _ =>
      rw [List.head?_cons, Option.map_some, isFree, h.ticket?_of_mem (hmem u List.mem_cons_self), Option.any_some]
      refine ⟨fun hreleased v hv => ?_, fun hall => hall u List.mem_cons_self⟩
      rcases List.mem_cons.mp hv with rfl | hv
      · exact hreleased
      · exact hu.order (Or.inr hreleased) v hv
  · exact ⟨fun _ => hall, fun _ => rfl⟩

/-- A ticket among those of its key fits to the older ones, and it has to wait for all of them. -/
theorem Sound.fits (h : l.Sound name) {key : String} {newer older : List (Ticket ι)}
    (hsplit : onKey key l.tickets = newer ++ t :: older) :
    t.Fits older ∧ (l.isFree t.previous = true ↔ ∀ u ∈ older, u.released = true) := by
  have hmem : ∀ u ∈ older, u ∈ l.tickets := by
    intro u hu
    have hu' : u ∈ onKey key l.tickets := by
      rw [hsplit]
      exact List.mem_append_right _ (List.mem_cons_of_mem _ hu)
    exact (mem_onKey.mp hu').1
  have hqueue := h.queue key
  rw [hsplit] at hqueue
  cases hqueue.append_right with
  | cons hfits hqueue => exact ⟨hfits, h.isFree_iff hmem hqueue hfits.follows⟩

omit [DecidableEq ι] in
/-- Whoever is to be waited for has a ticket. -/
theorem Follows.exists_mem {tickets : List (Ticket ι)} {owner : ι} (h : Follows tickets (some owner)) :
    ∃ u ∈ tickets, u.owner = owner := by
  rcases h with hhead | ⟨hnone, -⟩
  · obtain ⟨u, hu, howner⟩ := Option.map_eq_some_iff.mp hhead.symm
    exact ⟨u, List.mem_of_mem_head? hu, howner⟩
  · cases hnone

/-- Whoever a ticket waits for has drawn an older ticket of the key. -/
theorem Sound.exists_older (h : l.Sound name) (ht : t ∈ l.tickets) :
    ∃ newer older, l.tickets = newer ++ t :: older ∧ ∀ p, t.previous = some p → ∃ u ∈ older, u.owner = p ∧ u.key = t.key := by
  obtain ⟨newer, older, hsplit⟩ := List.append_of_mem ht
  refine ⟨newer, older, hsplit, fun p hp => ?_⟩
  have honKey : onKey t.key l.tickets = onKey t.key newer ++ t :: onKey t.key older := by
    rw [hsplit, onKey_append, onKey_cons, if_pos rfl]
  have hfollows := (h.fits honKey).1.follows
  rw [hp] at hfollows
  obtain ⟨u, hu, howner⟩ := hfollows.exists_mem
  exact ⟨u, (mem_onKey.mp hu).1, howner, (mem_onKey.mp hu).2⟩

/-! ## The invariant -/

/-- Putting a ticket in its place leaves every ticket on its key. -/
theorem Sound.onKey_put (h : l.Sound name) (ht : t ∈ l.tickets) (howner : t'.owner = t.owner) (hkey : t'.key = t.key)
    (key : String) :
    onKey key (l.put t').tickets = (onKey key l.tickets).map fun u => if u.owner = t'.owner then t' else u := by
  rw [onKey, put, List.filter_map, onKey]
  refine congrArg _ (List.filter_congr fun u hu => ?_)
  rw [Function.comp_apply]
  split
  · next hu' => rw [h.eq_of_owner hu ht (hu'.trans howner), hkey]
  · rfl

/-- After a replacement the only ticket of the owner is the new one. -/
theorem eq_of_mem_put {u : Ticket ι} (hu : u ∈ (l.put t').tickets) (howner : u.owner = t'.owner) : u = t' := by
  obtain ⟨v, -, rfl⟩ := List.mem_map.mp hu
  split at howner
  · next hv => exact if_pos hv
  · next hv => exact absurd howner hv

/-- A replacement leaves the owners and their order. -/
theorem owners_put (l : Lock ι) (t' : Ticket ι) : (l.put t').tickets.map Ticket.owner = l.tickets.map Ticket.owner := by
  rw [put, List.map_map]
  refine List.map_congr_left fun u _ => ?_
  rw [Function.comp_apply]
  split
  · next hu => exact hu.symm
  · rfl

omit [DecidableEq ι] in
/-- If the newest ticket of a key is released, all of them are. -/
theorem Queue.all_released {tickets : List (Ticket ι)} (h : Queue tickets) {owner : ι} (hfollows : Follows tickets (some owner))
    (hreleased : ∀ u ∈ tickets, u.owner = owner → u.released = true) : ∀ u ∈ tickets, u.released = true := by
  rcases hfollows with hhead | ⟨hnone, -⟩
  · cases h with
    | nil => cases hhead
    | @cons u rest hu _ =>
      have hfirst := hreleased u List.mem_cons_self (Option.some.inj hhead).symm
      intro v hv
      rcases List.mem_cons.mp hv with rfl | hv
      · exact hfirst
      · exact hu.order (Or.inr hfirst) v hv
  · cases hnone

/-- The tickets for each key are still queued, and still followed by the same tail, after something has happened to one of them. -/
theorem Sound.queued_put (h : l.Sound name) (ht : t ∈ l.tickets) (hmoves : t.Moves (l.isFree t.previous) t') (key : String) :
    Queue (onKey key (l.put t').tickets) ∧ Follows (onKey key (l.put t').tickets) (l.tails.get? key) := by
  have hfits : ∀ newer u older, onKey key l.tickets = newer ++ u :: older → u.owner = t'.owner →
      t'.Fits older ∧ (u.released = true → t'.released = true) := by
    intro newer u older hsplit hu
    have hmem : u ∈ onKey key l.tickets := hsplit ▸ List.mem_append_right _ List.mem_cons_self
    obtain rfl := h.eq_of_owner (mem_onKey.mp hmem).1 ht (hu.trans hmoves.owner)
    obtain ⟨hfits, hfree⟩ := h.fits hsplit
    exact ⟨hfits.moves hfree hmoves, hmoves.stays_released hfits⟩
  have hnodup : ((onKey key l.tickets).map Ticket.owner).Nodup := h.nodup.sublist (List.filter_sublist.map _)
  have hreplaced : ∀ u ∈ onKey key l.tickets, (if u.owner = t'.owner then t' else u).owner = u.owner ∧
      (u.released = true → (if u.owner = t'.owner then t' else u).released = true) := by
    intro u hu
    split
    · next hu' =>
      obtain ⟨newer, older, hsplit⟩ := List.append_of_mem hu
      exact ⟨hu'.symm, (hfits newer u older hsplit hu').2⟩
    · exact ⟨rfl, id⟩
  rw [h.onKey_put ht hmoves.owner hmoves.key]
  exact ⟨(h.queue key).replace hnodup hfits,
    (h.tail key).map (fun u hu => (hreplaced u hu).1) fun u hu => (hreplaced u hu).2⟩

/-- What holds of a lock still holds after something has happened to a ticket. -/
theorem Sound.moved (h : l.Sound name) (ht : t ∈ l.tickets) (hmoves : t.Moves (l.isFree t.previous) t') {tails : Keyed String ι}
    (htails : tails = l.tails ∨ t'.released = true ∧ l.tails.get? t.key = some t.owner ∧ tails = l.tails.erase t.key) :
    Sound name { l.put t' with tails } := by
  have howner := hmoves.owner
  have hqueued := h.queued_put ht hmoves
  refine ⟨(owners_put l t').symm ▸ h.nodup, fun u hu => ?_, fun key => (hqueued key).1, fun key => ?_⟩
  · obtain ⟨v, hv, rfl⟩ := List.mem_map.mp hu
    split
    · rw [hmoves.key, howner, h.keyed t ht]
    · exact h.keyed v hv
  · show Follows (onKey key (l.put t').tickets) (tails.get? key)
    obtain ⟨hqueue, htail⟩ := hqueued key
    rcases htails with rfl | ⟨hreleased, hnewest, rfl⟩
    · exact htail
    · rw [Keyed.get?_erase]
      split
      · next hkey =>
        rw [hkey] at hnewest
        rw [hnewest] at htail
        refine Or.inr ⟨rfl, hqueue.all_released htail fun u hu hu' => ?_⟩
        rw [eq_of_mem_put (mem_onKey.mp hu).1 (hu'.trans howner.symm)]
        exact hreleased
      · exact htail

/-- A ticket that is drawn fits to the tickets of its key. -/
theorem Sound.fits_newTicket (h : l.Sound name) (owner : ι) :
    (l.newTicket owner (name owner)).Fits (onKey (keyOf (name owner)) l.tickets) := by
  have hfollows := h.tail (keyOf (name owner))
  have hfree := h.isFree_iff (fun u hu => (mem_onKey.mp hu).1) (h.queue (keyOf (name owner))) hfollows
  refine ⟨hfollows, fun hor => hfree.mp ?_, nofun, fun ending hended => ?_, nofun⟩
  · have hentered := hor.resolve_right Bool.false_ne_true
    unfold newTicket at hentered
    simp only at hentered
    split at hentered
    · next hfirst => exact hfirst
    · cases hentered
  · unfold newTicket at hended
    simp only at hended
    split at hended <;> cases hended

/-- A lock stays sound when a ticket is drawn. -/
theorem Sound.drawn (h : l.Sound name) {owner : ι} (hnew : l.ticket? owner = none) :
    Sound name
      { tickets := l.newTicket owner (name owner) :: l.tickets, tails := l.tails.put (keyOf (name owner)) owner } := by
  have howner : (l.newTicket owner (name owner)).owner = owner := rfl
  have hkey : (l.newTicket owner (name owner)).key = keyOf (name owner) := rfl
  constructor
  case nodup =>
    rw [List.map_cons, List.nodup_cons]
    refine ⟨?_, h.nodup⟩
    rw [howner, List.mem_map]
    rintro ⟨u, hu, hu'⟩
    exact absurd (decide_eq_true hu') (List.find?_eq_none.mp hnew u hu)
  case keyed =>
    intro u hu
    rcases List.mem_cons.mp hu with rfl | hu
    · rw [hkey, howner]
    · exact h.keyed u hu
  case queue =>
    intro key
    rw [onKey_cons, hkey]
    split
    · next hsame => exact .cons (hsame ▸ h.fits_newTicket owner) (h.queue key)
    · exact h.queue key
  case tail =>
    intro key
    rw [onKey_cons, hkey, Keyed.get?_put]
    split
    · exact Or.inl (congrArg some howner.symm)
    · exact h.tail key

/-- Whatever an event does, a lock stays sound. -/
theorem Sound.effect {owner : ι} {l' : Lock ι} (h : l.Sound name) (heffect : Effect name l owner l') : l'.Sound name := by
  cases heffect with
  | nothing => exact h
  | drawn hnew => exact h.drawn hnew
  | moved ht hmoves htails => exact h.moved (ticket?_eq_some ht).1 hmoves htails

/-- The step lemma: every event keeps the invariant. -/
theorem Sound.step (h : l.Sound name) (e : Event ι) : (l.step name e).Sound name :=
  h.effect (effect_step name l e)

omit [DecidableEq ι] in
/-- The invariant holds before anything has happened. -/
theorem sound_empty (name : ι → String) : Sound name {} :=
  ⟨List.nodup_nil, nofun, fun _ => .nil, fun _ => Or.inl rfl⟩

/-- The run lemma: events in any order keep the invariant. -/
theorem Sound.foldl (h : l.Sound name) (es : List (Event ι)) : (es.foldl (Lock.step name) l).Sound name := by
  induction es generalizing l with
  | nil => exact h
  | cons e es ih => exact ih (h.step e)

/-- Whatever has happened, the lock is sound. -/
theorem sound_run (name : ι → String) (es : List (Event ι)) : (run name es).Sound name :=
  (sound_empty name).foldl es

end Lock

end UserScripts
