import Mathlib.Data.List.Pairwise
import UserScripts.Proofs.Lock.Queue

/-!
# Who enters, and when

Operations on the same key exclude each other, and they enter in the order in which they have called: nobody enters before everyone
who has called earlier on the key has succeeded, failed or been cancelled. Whoever is cancelled in the queue never enters. Main
statement: `entered_in_order`.
-/

namespace UserScripts

/-- Whether the operation waits. -/
def Phase.isQueued : Phase → Bool
  | .queued _ => true
  | _ => false

namespace Lock

variable {ι : Type} [DecidableEq ι]

/-! ## Where an operation stands -/

/-- Where an operation stands, if it has called. -/
def phase? (l : Lock ι) (i : ι) : Option Phase :=
  (l.ticket? i).map Ticket.phase

def hasCalled (l : Lock ι) (i : ι) : Bool :=
  (l.phase? i).isSome

def isQueued (l : Lock ι) (i : ι) : Bool :=
  (l.phase? i).any Phase.isQueued

def isInside (l : Lock ι) (i : ι) : Bool :=
  l.phase? i = some .inside

def hasEntered (l : Lock ι) (i : ι) : Bool :=
  (l.phase? i).any Phase.hasEntered

def isOver (l : Lock ι) (i : ι) : Bool :=
  (l.phase? i).any Phase.isOver

variable {name : ι → String} {l l' : Lock ι} {i j : ι}

/-- An operation of which something is known has a ticket. -/
theorem exists_ticket {p : Phase → Bool} (h : (l.phase? i).any p = true) :
    ∃ t, l.ticket? i = some t ∧ p t.phase = true := by
  rw [phase?, Option.any_map, Option.any_eq_true] at h
  exact h

/-- Whoever has called is an owner of a ticket. -/
theorem hasCalled_iff : l.hasCalled i = true ↔ i ∈ l.tickets.map Ticket.owner := by
  rw [hasCalled, phase?, Option.isSome_map, ticket?, List.find?_isSome, List.mem_map]
  simp

/-! ## What an event leaves as it is -/

/-- The ticket of an owner after one ticket has been replaced. -/
theorem ticket?_put (l : Lock ι) (t' : Ticket ι) (i : ι) :
    (l.put t').ticket? i = (l.ticket? i).map fun u => if u.owner = t'.owner then t' else u := by
  rw [ticket?, put, List.find?_map, ticket?]
  refine congrArg _ (congrArg (fun p => l.tickets.find? p) (funext fun u => ?_))
  rw [Function.comp_apply]
  split
  · next hu => rw [hu]
  · rfl

/-- An event changes nothing for the others. -/
theorem Effect.ticket?_of_ne {owner : ι} (h : Effect name l owner l') (hne : i ≠ owner) : l'.ticket? i = l.ticket? i := by
  cases h with
  | nothing => rfl
  | drawn _ =>
    rw [ticket?, List.find?_cons_of_neg]
    · rfl
    · rw [decide_eq_true_eq]
      exact fun howner => hne howner.symm
  | @moved t t' ht hmoves tails _ =>
    show (l.put t').ticket? i = l.ticket? i
    rw [ticket?_put]
    cases hu : l.ticket? i with
    | none => rfl
    | some u =>
      have hother : u.owner ≠ t'.owner := by
        rw [(ticket?_eq_some hu).2, hmoves.owner, (ticket?_eq_some ht).2]
        exact hne
      rw [Option.map_some, if_neg hother]

/-- An event moves nobody but its owner. -/
theorem phase?_step_of_ne (name : ι → String) (l : Lock ι) {e : Event ι} (h : i ≠ e.owner) :
    (l.step name e).phase? i = l.phase? i := by
  rw [phase?, (effect_step name l e).ticket?_of_ne h, phase?]

/-- Tickets are only ever added, in front of the others. -/
theorem Effect.owners_suffix {owner : ι} (h : Effect name l owner l') :
    l.tickets.map Ticket.owner <:+ l'.tickets.map Ticket.owner := by
  cases h with
  | nothing => exact List.suffix_refl _
  | drawn _ => exact List.suffix_cons _ _
  | moved _ _ _ => exact (owners_put l _).symm ▸ List.suffix_refl _

/-- Further events leave the owners of the tickets in their order; those who call later come before them. -/
theorem owners_suffix_foldl (name : ι → String) (l : Lock ι) (es : List (Event ι)) :
    l.tickets.map Ticket.owner <:+ (es.foldl (step name) l).tickets.map Ticket.owner := by
  induction es generalizing l with
  | nil => exact List.suffix_refl _
  | cons e es ih => exact (effect_step name l e).owners_suffix.trans (ih _)

/-- Events in two parts: the second part goes on where the first one ends. -/
theorem run_append (name : ι → String) (es es' : List (Event ι)) : run name (es ++ es') = es'.foldl (step name) (run name es) := by
  rw [run, List.foldl_append, run]

/-! ## Order -/

omit [DecidableEq ι] in
/-- A ticket that is released belongs to an operation that is over. -/
theorem Queue.over_of_released {tickets : List (Ticket ι)} (h : Queue tickets) {u : Ticket ι} (hu : u ∈ tickets)
    (hreleased : u.released = true) : u.phase.isOver = true := by
  obtain ⟨newer, older, rfl⟩ := List.append_of_mem hu
  cases h.append_right with
  | cons hfits _ => exact hfits.gone hreleased

omit [DecidableEq ι] in
/-- Behind whoever has entered everyone is done. -/
theorem Queue.pairwise {tickets : List (Ticket ι)} (h : Queue tickets) :
    tickets.Pairwise fun t u => t.phase.hasEntered = true → u.phase.isOver = true := by
  induction h with
  | nil => exact .nil
  | cons hfits hqueue ih =>
    exact .cons (fun u hu hentered => hqueue.over_of_released hu (hfits.order (Or.inl hentered) u hu)) ih

/-- If an operation has called before another one on the key, it is over once the other one has entered. -/
theorem Sound.over_of_entered (h : l'.Sound name) (hsuffix : l.tickets.map Ticket.owner <:+ l'.tickets.map Ticket.owner)
    (hkey : keyOf (name i) = keyOf (name j)) (hi : l.hasCalled i = true) (hj : l.hasCalled j = false)
    (hentered : l'.hasEntered j = true) : l'.isOver i = true := by
  rw [hasCalled_iff] at hi
  rw [Bool.eq_false_iff, ne_eq, hasCalled_iff] at hj
  obtain ⟨tj, hfind, hphase⟩ := exists_ticket hentered
  obtain ⟨htj, rfl⟩ := ticket?_eq_some hfind
  -- The tickets that were there before are the last ones, and that of the other one is not among them.
  obtain ⟨new, hnew⟩ := hsuffix
  obtain ⟨newer, older, htickets, -, hold⟩ := List.append_eq_map_iff.mp hnew
  rw [← hold] at hi hj
  obtain ⟨ti, hti, rfl⟩ := List.mem_map.mp hi
  have hmem : ti ∈ l'.tickets := htickets ▸ List.mem_append_right _ hti
  have hnewer : tj ∈ newer := by
    rw [htickets, List.mem_append] at htj
    exact htj.resolve_right fun hmem => hj (List.mem_map_of_mem hmem)
  have hpairwise := (h.queue tj.key).pairwise
  rw [htickets, onKey_append, List.pairwise_append] at hpairwise
  have hsame : ti.key = tj.key := by
    rw [h.keyed ti hmem, h.keyed tj htj, hkey]
  have hover := hpairwise.2.2 tj (mem_onKey.mpr ⟨hnewer, rfl⟩) ti (mem_onKey.mpr ⟨hti, hsame⟩) hphase
  rw [isOver, phase?, h.ticket?_of_mem hmem, Option.map_some, Option.any_some]
  exact hover

/-! ## Exclusion -/

/-- Whoever is inside has a ticket that says so. -/
theorem exists_inside (h : l.isInside i = true) : ∃ t ∈ l.tickets, t.owner = i ∧ t.phase = .inside := by
  rw [isInside, decide_eq_true_eq, phase?, Option.map_eq_some_iff] at h
  obtain ⟨t, hfind, hphase⟩ := h
  exact ⟨t, (ticket?_eq_some hfind).1, (ticket?_eq_some hfind).2, hphase⟩

/-- Of two operations on a key at most one is inside. -/
theorem Sound.eq_of_inside (h : l.Sound name) (hkey : keyOf (name i) = keyOf (name j)) (hi : l.isInside i = true)
    (hj : l.isInside j = true) : i = j := by
  obtain ⟨ti, hti, rfl, hini⟩ := exists_inside hi
  obtain ⟨tj, htj, rfl, hinj⟩ := exists_inside hj
  have hexcluded : (onKey tj.key l.tickets).Pairwise fun t u => ¬(t.phase = .inside ∧ u.phase = .inside) := by
    refine (h.queue tj.key).pairwise.imp ?_
    rintro t u hover ⟨ht, hu⟩
    rw [ht, hu] at hover
    exact absurd (hover rfl) Bool.false_ne_true
  have hsymm : Std.Symm fun t u : Ticket ι => ¬(t.phase = .inside ∧ u.phase = .inside) :=
    ⟨fun _ _ hnot hboth => hnot hboth.symm⟩
  have hsame : ti.key = tj.key := by
    rw [h.keyed ti hti, h.keyed tj htj, hkey]
  by_contra hne
  exact hexcluded.forall (mem_onKey.mpr ⟨hti, hsame⟩) (mem_onKey.mpr ⟨htj, rfl⟩) (fun heq => hne (congrArg _ heq))
    ⟨hini, hinj⟩

/-! ## Giving up -/

/-- Whoever has been cancelled in the queue stays so. -/
theorem Effect.cancelled {owner : ι} (h : Effect name l owner l') (hi : (l.ticket? i).any Ticket.cancelled = true) :
    (l'.ticket? i).any Ticket.cancelled = true := by
  by_cases hne : i = owner
  · subst hne
    cases h with
    | nothing => exact hi
    | drawn hnew =>
      rw [hnew] at hi
      cases hi
    | @moved t t' ht hmoves tails _ =>
      rw [ht] at hi
      show ((l.put t').ticket? i).any Ticket.cancelled = true
      rw [ticket?_put, ht, Option.map_some, if_pos hmoves.owner.symm]
      exact hmoves.cancelled hi
  · rw [h.ticket?_of_ne hne]
    exact hi

/-- A cancellation is not taken back by further events. -/
theorem cancelled_foldl (es : List (Event ι)) (h : (l.ticket? i).any Ticket.cancelled = true) :
    ((es.foldl (step name) l).ticket? i).any Ticket.cancelled = true := by
  induction es generalizing l with
  | nil => exact h
  | cons e es ih => exact ih ((effect_step name l e).cancelled h)

/-- Cancelling an operation in the queue marks its ticket. -/
theorem cancelled_stop (h : l.isQueued i = true) : ((l.stop i).ticket? i).any Ticket.cancelled = true := by
  obtain ⟨t, hfind, hphase⟩ := exists_ticket h
  obtain ⟨ending, hending⟩ : ∃ ending, t.phase = .queued ending := by
    cases hp : t.phase with
    | queued ending => exact ⟨ending, rfl⟩
    | inside => rw [hp] at hphase; cases hphase
    | ended ending => rw [hp] at hphase; cases hphase
    | abandoned => rw [hp] at hphase; cases hphase
  simp only [stop, hfind, hending]
  rw [ticket?_put, hfind, Option.map_some, if_pos rfl]
  rfl

/-- A ticket whose owner has been cancelled in the queue is never used. -/
theorem Sound.not_hasEntered (h : l.Sound name) (hi : (l.ticket? i).any Ticket.cancelled = true) : l.hasEntered i = false := by
  rw [Option.any_eq_true] at hi
  obtain ⟨t, hfind, hcancelled⟩ := hi
  obtain ⟨newer, older, hsplit⟩ := List.append_of_mem (mem_onKey.mpr ⟨(ticket?_eq_some hfind).1, rfl⟩)
  rw [hasEntered, phase?, hfind]
  exact (h.fits hsplit).1.cancelled hcancelled

/-! ## Runs -/

/-- Operations on the same key exclude each other and enter in the order of their calls, whatever happens to them and in whatever
order. Of two operations that have called one after the other, the first one is over once the second one has entered, and it was
over just before the second one entered. An operation that is cancelled while it waits never enters. -/
theorem entered_in_order (name : ι → String) :
    (∀ es i j, keyOf (name i) = keyOf (name j) → (run name es).isInside i → (run name es).isInside j → i = j) ∧
    (∀ es es' i j, keyOf (name i) = keyOf (name j) → (run name es).hasCalled i → ¬(run name es).hasCalled j →
      (run name (es ++ es')).hasEntered j → (run name (es ++ es')).isOver i) ∧
    (∀ es es' e i j, keyOf (name i) = keyOf (name j) → (run name es).hasCalled i → ¬(run name es).hasCalled j →
      ¬(run name (es ++ es')).hasEntered j → (run name (es ++ es' ++ [e])).hasEntered j → (run name (es ++ es')).isOver i) ∧
    (∀ es es' i, (run name es).isQueued i → ¬(run name (es ++ ⟨i, .cancel⟩ :: es')).hasEntered i) := by
  have horder : ∀ es es' i j, keyOf (name i) = keyOf (name j) → (run name es).hasCalled i → ¬(run name es).hasCalled j →
      (run name (es ++ es')).hasEntered j → (run name (es ++ es')).isOver i := by
    intro es es' i j hkey hi hj hentered
    refine (sound_run name _).over_of_entered ?_ hkey hi (Bool.not_eq_true _ ▸ hj) hentered
    rw [run_append]
    exact owners_suffix_foldl name _ es'
  refine ⟨fun es i j hkey hi hj => (sound_run name es).eq_of_inside hkey hi hj, horder, ?_, ?_⟩
  · intro es es' e i j hkey hi hj hbefore hentered
    have hstep : run name (es ++ es' ++ [e]) = (run name (es ++ es')).step name e := by
      rw [run_append]
      rfl
    have hover := horder es (es' ++ [e]) i j hkey hi hj (by rwa [← List.append_assoc])
    rw [← List.append_assoc, hstep] at hover
    rw [hstep] at hentered
    -- It is the owner of the event who enters, so the event has changed nothing for the other one.
    have howner : j = e.owner := by
      by_contra hne
      rw [hasEntered, phase?_step_of_ne name _ hne] at hentered
      exact hbefore hentered
    have hother : i ≠ e.owner := by
      rw [← howner]
      rintro rfl
      exact hj hi
    rwa [isOver, phase?_step_of_ne name _ hother] at hover
  · intro es es' i hqueued
    rw [run_append, Bool.not_eq_true]
    refine ((sound_run name es).step _ |>.foldl es').not_hasEntered (cancelled_foldl es' ?_)
    exact cancelled_stop hqueued

/-- Of three operations the second one is cancelled in the queue: it lets nobody pass, and it does not enter when the first one
fails. -/
theorem entered_in_order_cancelled :
    let name : Nat → String := fun i => if i = 1 then " K" else "k"
    let calls : List (Event Nat) := [⟨0, .call⟩, ⟨1, .call⟩]
    let waiting : List (Event Nat) := [⟨2, .call⟩, ⟨1, .cancel⟩, ⟨1, .turn⟩, ⟨2, .turn⟩]
    let ending : List (Event Nat) := [⟨0, .finish .failure⟩, ⟨1, .turn⟩]
    (run name (calls ++ waiting)).isInside 0 = true ∧ ¬(run name (calls ++ waiting)).hasEntered 2 = true ∧
      (run name (calls ++ (waiting ++ ending) ++ [⟨2, .turn⟩])).hasEntered 2 = true ∧
      (run name (calls ++ (waiting ++ ending))).isOver 0 = true ∧ (run name (calls ++ (waiting ++ ending))).isOver 1 = true ∧
      ¬(run name (calls ++ ⟨1, .cancel⟩ :: ending)).hasEntered 1 = true := by
  intro name calls waiting ending
  have hinside : (run name (calls ++ waiting)).isInside 0 = true := by decide
  have hbefore : ¬(run name (calls ++ (waiting ++ ending))).hasEntered 2 = true := by decide
  have hentered : (run name (calls ++ (waiting ++ ending) ++ [⟨2, .turn⟩])).hasEntered 2 = true := by decide
  obtain ⟨-, -, hover, hnever⟩ := entered_in_order name
  refine ⟨hinside, by decide, hentered, ?_, ?_, hnever calls ending 1 (by decide)⟩
  · exact hover calls (waiting ++ ending) ⟨2, .turn⟩ 0 2 rfl (by decide) (by decide) hbefore hentered
  · exact hover calls (waiting ++ ending) ⟨2, .turn⟩ 1 2 (by decide) (by decide) (by decide) hbefore hentered

end Lock

end UserScripts
