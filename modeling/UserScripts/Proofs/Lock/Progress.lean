import UserScripts.Proofs.Lock.Keys

/-!
# Nobody waits for nothing

Once nobody has anything to take notice of, the first operation on a key that is not over is inside its action. So an operation
waits only as long as an earlier one on the key runs, whatever mix of failures and cancellations has come before. Main statement:
`no_wakeup_is_lost`.
-/

namespace UserScripts.Lock

variable {ι : Type} [DecidableEq ι] {name : ι → String} {key : String} {l l' : Lock ι} {i : ι} {t : Ticket ι}

/-- The lock has settled: no turn changes anything. -/
def Settled (l : Lock ι) : Prop :=
  ∀ i, l.turn i = l

omit [DecidableEq ι] in
/-- The first ticket of a key, in the order of the calls, whose operation is not over. -/
def earliest? (l : Lock ι) (key : String) : Option (Ticket ι) :=
  l.tickets.reverse.find? fun t => t.key == key && !t.phase.isOver

/-! ## Turns -/

/-- The ticket that an owner finds after a replacement is the new one. -/
theorem ticket?_put_self {t' : Ticket ι} (hfind : l.ticket? i = some t) (howner : t'.owner = t.owner) :
    (l.put t').ticket? i = some t' := by
  rw [ticket?_put, hfind, Option.map_some, if_pos howner.symm]

/-- Whoever leaves finds the ticket in its last phase, and released if the one before it is. -/
theorem ticket?_leave (hfind : l.ticket? i = some t) (phase : Phase) :
    (l.leave t phase).ticket? i = some { t with phase, released := l.isFree t.previous } := by
  have hput : (l.put { t with phase, released := l.isFree t.previous }).ticket? i =
      some { t with phase, released := l.isFree t.previous } := ticket?_put_self hfind rfl
  exact hput

/-- Whoever takes notice of something is inside afterwards, or has left and is released if the one before it is. -/
theorem ticket?_proceed (hfind : l.ticket? i = some t) (hpending : l.isPending t = true) :
    ∃ t', (l.proceed t).ticket? i = some t' ∧ t'.previous = t.previous ∧
      (t'.phase = .inside ∨ t'.phase.isOver = true ∧ t'.released = l.isFree t.previous) := by
  rcases isPending_cases hpending with ⟨ending, hphase, -⟩ | ⟨hover, -, hfree⟩
  · simp only [proceed, hphase]
    split
    · exact ⟨_, ticket?_leave hfind _, rfl, Or.inr ⟨rfl, rfl⟩⟩
    · cases ending with
      | none => exact ⟨_, ticket?_put_self hfind rfl, rfl, Or.inl rfl⟩
      | some ending => exact ⟨_, ticket?_leave hfind _, rfl, Or.inr ⟨rfl, rfl⟩⟩
  · have hproceed : l.proceed t = l.put { t with released := true } := by
      unfold proceed
      split
      · next hphase =>
        rw [hphase] at hover
        cases hover
      · rfl
    rw [hproceed]
    exact ⟨_, ticket?_put_self hfind rfl, rfl, Or.inr ⟨hover, hfree.symm⟩⟩

/-- An event leaves what others than its owner have to wait for as it is. -/
theorem Effect.isFree_of_ne {owner : ι} (h : Effect name l owner l') {previous : Option ι} (hne : previous ≠ some owner) :
    l'.isFree previous = l.isFree previous := by
  cases previous with
  | none => rfl
  | some p => rw [isFree, h.ticket?_of_ne fun hp => hne (congrArg some hp), isFree]

/-- Nobody waits for itself. -/
theorem Sound.previous_ne (h : l.Sound name) (ht : t ∈ l.tickets) : t.previous ≠ some t.owner := by
  intro hp
  obtain ⟨newer, older, hsplit, hprevious⟩ := h.exists_older ht
  obtain ⟨u, hu, howner, -⟩ := hprevious _ hp
  have hnodup := h.nodup
  rw [hsplit, List.map_append, List.map_cons] at hnodup
  exact (List.nodup_cons.mp (List.nodup_append.mp hnodup).2.1).1 (howner ▸ List.mem_map_of_mem hu)

/-- After its turn an operation has nothing left to take notice of. -/
theorem Sound.isPending_turn (h : l.Sound name) (hfind : (l.turn i).ticket? i = some t) : (l.turn i).isPending t = false := by
  cases hbefore : l.ticket? i with
  | none =>
    have hturn : l.turn i = l := by rw [turn, hbefore]
    rw [hturn, hbefore] at hfind
    cases hfind
  | some u =>
    rw [turn, hbefore] at hfind ⊢
    simp only at hfind ⊢
    split at hfind
    · next hpending =>
      obtain ⟨t', hfind', hprevious, hwhere⟩ := ticket?_proceed hbefore hpending
      obtain rfl : t' = t := Option.some.inj (hfind'.symm.trans hfind)
      obtain ⟨hu, rfl⟩ := ticket?_eq_some hbefore
      have hfree : (l.proceed u).isFree t'.previous = l.isFree u.previous := by
        rw [hprevious]
        exact (effect_proceed hbefore hpending : Effect name l u.owner _).isFree_of_ne (h.previous_ne hu)
      rw [if_pos hpending]
      rcases hwhere with hinside | ⟨hover, hreleased⟩
      · simp only [isPending, hinside]
      · refine Bool.eq_false_iff.mpr fun hagain => ?_
        rcases isPending_cases hagain with ⟨ending, hphase, -⟩ | ⟨-, hnot, hfree'⟩
        · rw [hphase] at hover
          cases hover
        · rw [hfree, ← hreleased, hnot] at hfree'
          cases hfree'
    · next hidle =>
      obtain rfl : u = t := Option.some.inj (hbefore.symm.trans hfind)
      rw [if_neg hidle]
      exact Bool.not_eq_true _ ▸ hidle

/-- A lock has settled if and only if nobody has anything to take notice of. -/
theorem Sound.settled_iff (h : l.Sound name) : l.Settled ↔ ∀ t ∈ l.tickets, l.isPending t = false := by
  constructor
  · intro hsettled t ht
    have hfind := h.ticket?_of_mem ht
    have hturn := h.isPending_turn (i := t.owner) (t := t) (by rw [hsettled]; exact hfind)
    rwa [hsettled] at hturn
  · intro hidle i
    rw [turn]
    cases hfind : l.ticket? i with
    | none => rfl
    | some t => exact if_neg (Bool.not_eq_true _ ▸ hidle t (ticket?_eq_some hfind).1)

/-! ## Giving everyone a turn -/

/-- A turn draws no ticket. -/
theorem owners_turn (l : Lock ι) (i : ι) : (l.turn i).tickets.map Ticket.owner = l.tickets.map Ticket.owner := by
  rw [turn]
  cases hfind : l.ticket? i with
  | none => rfl
  | some t =>
    simp only
    split
    · next hpending =>
      have heffect : Effect (fun _ => "") l i (l.proceed t) := effect_proceed hfind hpending
      generalize l.proceed t = l' at heffect
      cases heffect with
      | nothing => rfl
      | drawn hnew => rw [hfind] at hnew; cases hnew
      | moved _ _ _ => exact owners_put l _
    · rfl

/-- An operation that has called before another one does not wait for it. -/
theorem Sound.previous_ne_of_suffix (h : l.Sound name) {rest : List ι} (hsuffix : i :: rest <:+ l.tickets.map Ticket.owner)
    (ht : t ∈ l.tickets) (howner : t.owner ∈ rest) : t.previous ≠ some i := by
  intro hp
  obtain ⟨newer, older, hsplit, hprevious⟩ := h.exists_older ht
  obtain ⟨u, hu, rfl, -⟩ := hprevious i hp
  have hmem : u.owner ∈ older.map Ticket.owner := List.mem_map_of_mem hu
  have hnodup : (u.owner :: rest).Nodup := h.nodup.sublist hsuffix.sublist
  have hbehind : t.owner :: older.map Ticket.owner <:+ l.tickets.map Ticket.owner := by
    rw [hsplit, List.map_append, List.map_cons]
    exact List.suffix_append _ _
  have hnodup' : (t.owner :: older.map Ticket.owner).Nodup := h.nodup.sublist hbehind.sublist
  -- Of two ends of the list one is an end of the other.
  rcases List.suffix_or_suffix_of_suffix hbehind hsuffix with hshort | hshort
  · rcases List.suffix_cons_iff.mp hshort with heq | hshort
    · rw [(List.cons.inj heq).2] at hmem
      exact (List.nodup_cons.mp hnodup).1 hmem
    · exact (List.nodup_cons.mp hnodup).1 (hshort.subset (List.mem_cons_of_mem _ hmem))
  · rcases List.suffix_cons_iff.mp hshort with heq | hshort
    · rw [(List.cons.inj heq).2] at howner
      exact (List.nodup_cons.mp hnodup').1 howner
    · exact (List.nodup_cons.mp hnodup').1 (hshort.subset (List.mem_cons_of_mem _ howner))

/-- After the operations that have called first have had their turns, none of them has anything left to take notice of. -/
theorem Sound.isPending_foldr (h : l.Sound name) {owners : List ι} (hsuffix : owners <:+ l.tickets.map Ticket.owner) :
    (owners.foldr (fun i l => l.turn i) l).Sound name ∧
      (owners.foldr (fun i l => l.turn i) l).tickets.map Ticket.owner = l.tickets.map Ticket.owner ∧
      ∀ t ∈ (owners.foldr (fun i l => l.turn i) l).tickets, t.owner ∈ owners →
        (owners.foldr (fun i l => l.turn i) l).isPending t = false := by
  induction owners with
  | nil => exact ⟨h, rfl, fun t _ hmem => nomatch hmem⟩
  | cons i rest ih =>
    obtain ⟨hsound, howners, hidle⟩ := ih ((List.suffix_cons i rest).trans hsuffix)
    rw [List.foldr_cons]
    generalize rest.foldr (fun i l => l.turn i) l = l' at hsound howners hidle
    have hturned : (l'.turn i).Sound name := hsound.step ⟨i, .turn⟩
    refine ⟨hturned, (owners_turn l' i).trans howners, fun t ht hmem => ?_⟩
    have hfind := hturned.ticket?_of_mem ht
    by_cases hsame : t.owner = i
    · rw [hsame] at hfind
      exact hsound.isPending_turn hfind
    · have hrest : t.owner ∈ rest := (List.mem_cons.mp hmem).resolve_left hsame
      have heffect : Effect name l' i (l'.turn i) := effect_step name l' ⟨i, .turn⟩
      have hmem' : t ∈ l'.tickets := by
        rw [heffect.ticket?_of_ne hsame] at hfind
        exact (ticket?_eq_some hfind).1
      rw [isPending_congr (heffect.isFree_of_ne (hsound.previous_ne_of_suffix (howners ▸ hsuffix) hmem' hrest))]
      exact hidle t hmem' hrest

/-- After everyone has had a turn the lock has settled. -/
theorem Sound.settled_settle (h : l.Sound name) : l.settle.Settled := by
  obtain ⟨hsound, howners, hidle⟩ := h.isPending_foldr (List.suffix_refl _)
  rw [List.foldr_map] at hsound howners hidle
  refine hsound.settled_iff.mpr fun t ht => hidle t ht ?_
  rw [← howners]
  exact List.mem_map_of_mem ht

/-! ## The first operation that is not over -/

/-- Whoever is queued with nothing left to wait for has something to take notice of. -/
theorem isPending_of_queued {ending : Option Ending} (hphase : t.phase = .queued ending) (hfree : l.isFree t.previous = true) :
    l.isPending t = true := by
  rw [isPending, hphase, hfree, Bool.or_true]

/-- Whoever is over and has nothing left to wait for, but is not released, has something to take notice of. -/
theorem isPending_of_over (hover : t.phase.isOver = true) (hreleased : t.released = false) (hfree : l.isFree t.previous = true) :
    l.isPending t = true := by
  unfold isPending
  split
  · next hphase => rw [hphase] at hover; cases hover
  · next hphase => rw [hphase] at hover; cases hover
  · rw [hreleased, hfree]
    rfl

/-- In a lock that has settled, nobody holds others back behind operations that are over. -/
theorem Sound.released_of_over (h : l.Sound name) (hsettled : l.Settled) {older : List (Ticket ι)}
    (hsuffix : older <:+ onKey key l.tickets) (hover : ∀ u ∈ older, u.phase.isOver = true) : ∀ u ∈ older, u.released = true := by
  induction older with
  | nil => exact nofun
  | cons t older ih =>
    have hall := ih ((List.suffix_cons t older).trans hsuffix) fun u hu => hover u (List.mem_cons_of_mem _ hu)
    obtain ⟨newer, hsplit⟩ := hsuffix
    have hfree := (h.fits hsplit.symm).2.mpr hall
    have ht : t ∈ l.tickets := (mem_onKey.mp (hsplit ▸ List.mem_append_right _ List.mem_cons_self)).1
    have hreleased : t.released = true := by
      by_contra hnot
      have hpending := isPending_of_over (hover t List.mem_cons_self) (Bool.not_eq_true _ ▸ hnot) hfree
      rw [h.settled_iff.mp hsettled t ht] at hpending
      cases hpending
    intro u hu
    rcases List.mem_cons.mp hu with rfl | hu
    · exact hreleased
    · exact hall u hu

omit [DecidableEq ι] in
/-- What it means that an operation is the first one that is not over. -/
theorem earliest?_eq_some (h : l.earliest? key = some t) :
    t.phase.isOver = false ∧ ∃ newer older, onKey key l.tickets = newer ++ t :: older ∧ ∀ u ∈ older, u.phase.isOver = true := by
  obtain ⟨hfirst, before, after, hsplit, hbefore⟩ := List.find?_eq_some_iff_append.mp h
  rw [Bool.and_eq_true, beq_iff_eq, Bool.not_eq_true'] at hfirst
  have htickets : l.tickets = after.reverse ++ t :: before.reverse := by
    rw [← List.reverse_reverse l.tickets, hsplit, List.reverse_append, List.reverse_cons, List.append_assoc]
    rfl
  refine ⟨hfirst.2, onKey key after.reverse, onKey key before.reverse, ?_, fun u hu => ?_⟩
  · rw [htickets, onKey_append, onKey_cons, if_pos hfirst.1]
  · obtain ⟨hu, hkey⟩ := mem_onKey.mp hu
    have hnot := hbefore u (List.mem_reverse.mp hu)
    rw [hkey, beq_self_eq_true, Bool.true_and, Bool.not_not] at hnot
    exact hnot

/-- In a lock that has settled, the first operation on a key that is not over is inside its action. -/
theorem Sound.inside_of_earliest? (h : l.Sound name) (hsettled : l.Settled) (hfirst : l.earliest? key = some t) :
    t.phase = .inside := by
  obtain ⟨hnot, newer, older, hsplit, hover⟩ := earliest?_eq_some hfirst
  have hreleased := h.released_of_over hsettled ⟨newer ++ [t], by rw [hsplit, List.append_assoc]; rfl⟩ hover
  have hfree := (h.fits hsplit).2.mpr hreleased
  have ht : t ∈ l.tickets := (mem_onKey.mp (hsplit ▸ List.mem_append_right _ List.mem_cons_self)).1
  cases hphase : t.phase with
  | inside => rfl
  | queued ending =>
    have hpending := isPending_of_queued hphase hfree
    rw [h.settled_iff.mp hsettled t ht] at hpending
    cases hpending
  | ended ending => rw [hphase] at hnot; cases hnot
  | abandoned => rw [hphase] at hnot; cases hnot

/-- Whether an operation on a key has called and is not over. -/
theorem Sound.exists_not_over_iff (h : l.Sound name) (key : String) :
    (∃ i, l.hasCalled i ∧ keyOf (name i) = key ∧ ¬l.isOver i) ↔ ∃ t ∈ onKey key l.tickets, t.phase.isOver = false := by
  constructor
  · rintro ⟨i, hcalled, hkey, hnot⟩
    obtain ⟨t, ht, rfl⟩ := List.mem_map.mp (hasCalled_iff.mp hcalled)
    rw [isOver, phase?, h.ticket?_of_mem ht] at hnot
    exact ⟨t, mem_onKey.mpr ⟨ht, (h.keyed t ht).trans hkey⟩, Bool.not_eq_true _ ▸ hnot⟩
  · rintro ⟨t, ht, hnot⟩
    obtain ⟨ht, hkey⟩ := mem_onKey.mp ht
    refine ⟨t.owner, hasCalled_iff.mpr (List.mem_map_of_mem ht), (h.keyed t ht).symm.trans hkey, ?_⟩
    rw [isOver, phase?, h.ticket?_of_mem ht, Option.map_some, Option.any_some, hnot]
    exact Bool.false_ne_true

omit [DecidableEq ι] in
/-- There is an earliest operation of a key exactly if one of them is not over. -/
theorem isSome_earliest?_iff (l : Lock ι) (key : String) :
    (l.earliest? key).isSome = true ↔ ∃ t ∈ onKey key l.tickets, t.phase.isOver = false := by
  rw [earliest?, List.find?_isSome]
  simp only [List.mem_reverse, Bool.and_eq_true, beq_iff_eq, Bool.not_eq_true', mem_onKey, and_assoc]

/-- A key is locked if and only if an operation on it has called and is not over. -/
theorem Sound.isLocked_iff (h : l.Sound name) (hsettled : l.Settled) (key : String) :
    l.isLocked key = true ↔ ∃ t ∈ onKey (keyOf key) l.tickets, t.phase.isOver = false := by
  have hfree := h.isFree_iff (fun u hu => (mem_onKey.mp hu).1) (h.queue (keyOf key)) (h.tail (keyOf key))
  rw [isLocked, Bool.not_eq_true', ← Bool.not_eq_true, hfree]
  constructor
  · intro hheld
    by_contra hnone
    refine hheld (h.released_of_over hsettled (List.suffix_refl _) fun u hu => ?_)
    by_contra hnot
    exact hnone ⟨u, hu, Bool.not_eq_true _ ▸ hnot⟩
  · rintro ⟨t, ht, hnot⟩ hall
    rw [(h.queue (keyOf key)).over_of_released ht (hall t ht)] at hnot
    cases hnot

/-! ## Runs -/

/-- The lock after events if it settles after each of them. -/
def play (name : ι → String) (es : List (Event ι)) : Lock ι :=
  es.foldl (fun l e => (l.step name e).settle) {}

/-- A lock without tickets has settled. -/
theorem settled_empty : Settled ({} : Lock ι) :=
  fun _ => rfl

/-- A lock that settles after every event is settled in the end. -/
theorem Sound.settled_foldl_settle (h : l.Sound name) (hsettled : l.Settled) (es : List (Event ι)) :
    (es.foldl (fun l e => (l.step name e).settle) l).Settled := by
  induction es generalizing l with
  | nil => exact hsettled
  | cons e es ih => exact ih (h.step e).settle (h.step e).settled_settle

/-- Settling a lock that has settled changes nothing. -/
theorem settle_of_settled (h : l.Settled) : l.settle = l := by
  have hturns : ∀ tickets : List (Ticket ι), tickets.foldr (fun t l => l.turn t.owner) l = l := by
    intro tickets
    induction tickets with
    | nil => rfl
    | cons t tickets ih => rw [List.foldr_cons, ih, h]
  exact hturns l.tickets

omit [DecidableEq ι] in
/-- The events of giving everyone a turn are turns. -/
theorem act_of_mem_turns {tickets : List (Ticket ι)} {e : Event ι} (h : e ∈ turns tickets) : e.act = .turn := by
  obtain ⟨t, -, rfl⟩ := List.mem_map.mp h
  rfl

/-- A lock settles by turns. -/
theorem exists_turns (name : ι → String) (es : List (Event ι)) :
    ∃ more, (∀ e ∈ more, e.act = .turn) ∧ run name (es ++ more) = (run name es).settle :=
  ⟨turns (run name es).tickets, fun _ => act_of_mem_turns, by rw [run_append, settle_eq name]⟩

/-- A lock that settles after each event is one that has seen these events and turns. -/
theorem exists_run_eq_play (name : ι → String) (es : List (Event ι)) : ∃ es', play name es = run name es' := by
  have hfoldl : ∀ (es es' : List (Event ι)),
      ∃ all, es.foldl (fun l e => (l.step name e).settle) (run name es') = run name all := by
    intro es
    induction es with
    | nil => exact fun es' => ⟨es', rfl⟩
    | cons e es ih =>
      intro es'
      obtain ⟨more, -, hmore⟩ := exists_turns name (es' ++ [e])
      have hstep : run name (es' ++ [e]) = (run name es').step name e := by
        rw [run_append]
        rfl
      rw [List.foldl_cons, ← hstep, ← hmore]
      exact ih _
  exact hfoldl es []

/-- If two locks agree on a key, then they still do after events in the first one and, in the second one, the events of that key
only. -/
theorem sameOn_foldl_settle (hsame : SameOn key l l') (h : l.Sound name) (h' : l'.Sound name) (hsettled : l'.Settled)
    (es : List (Event ι)) :
    SameOn key (es.foldl (fun l e => (l.step name e).settle) l)
      ((es.filter fun e => keyOf (name e.owner) = key).foldl (fun l e => (l.step name e).settle) l') := by
  induction es generalizing l l' with
  | nil => exact hsame
  | cons e es ih =>
    rw [List.foldl_cons, List.filter_cons]
    split
    · next hkey =>
      rw [decide_eq_true_eq] at hkey
      have hsettle := (hsame.step h h' hkey).settle (h.step e) (h'.step e)
      exact ih hsettle (h.step e).settle (h'.step e).settle (h'.step e).settled_settle
    · next hkey =>
      rw [decide_eq_true_eq] at hkey
      have hsettle := ((h.sameOn_step hkey).trans hsame).settle (h.step e) h'
      rw [settle_of_settled hsettled] at hsettle
      exact ih hsettle (h.step e).settle h' hsettled

/-- No wake-up is lost, whatever happens to the operations and in whatever order.
1. From any state turns alone let the lock settle. A lock that settles after each event is one of these states.
2. In a lock that has settled, if an operation has called and is not over, the first such operation on its key is inside its action.
3. In a lock that has settled, a key is locked if and only if an operation on it has called and is not over.
4. How the operations on a key stand depends on the events of these operations alone, whenever they have their turns, and also if
the lock settles after each event. -/
theorem no_wakeup_is_lost (name : ι → String) :
    ((∀ es, ∃ more, (∀ e ∈ more, e.act = .turn) ∧ (run name (es ++ more)).Settled) ∧
      ∀ es, (play name es).Settled ∧ ∃ es', play name es = run name es') ∧
    (∀ es i, (run name es).Settled → (run name es).hasCalled i → ¬(run name es).isOver i →
      ∃ t, (run name es).earliest? (keyOf (name i)) = some t ∧ t.phase = .inside) ∧
    (∀ es key, (run name es).Settled → ((run name es).isLocked key ↔
      ∃ i, (run name es).hasCalled i ∧ keyOf (name i) = keyOf key ∧ ¬(run name es).isOver i)) ∧
    (∀ es es' key, (es.filter fun e => keyOf (name e.owner) = key) = (es'.filter fun e => keyOf (name e.owner) = key) →
      onKey key (run name es).tickets = onKey key (run name es').tickets ∧
      onKey key (play name es).tickets = onKey key (play name es').tickets) := by
  refine ⟨⟨fun es => ?_, fun es => ⟨?_, exists_run_eq_play name es⟩⟩, fun es i hsettled hcalled hnot => ?_,
    fun es key hsettled => ?_, fun es es' key hevents => ⟨?_, ?_⟩⟩
  · obtain ⟨more, hturns, hmore⟩ := exists_turns name es
    exact ⟨more, hturns, hmore ▸ (sound_run name es).settled_settle⟩
  · exact (sound_empty name).settled_foldl_settle settled_empty es
  · have hsome := (isSome_earliest?_iff (run name es) (keyOf (name i))).mpr
      (((sound_run name es).exists_not_over_iff _).mp ⟨i, hcalled, rfl, hnot⟩)
    obtain ⟨t, hfirst⟩ := Option.isSome_iff_exists.mp hsome
    exact ⟨t, hfirst, (sound_run name es).inside_of_earliest? hsettled hfirst⟩
  · exact ((sound_run name es).isLocked_iff hsettled key).trans ((sound_run name es).exists_not_over_iff _).symm
  · have hleft := (SameOn.refl key ({} : Lock ι)).foldl (sound_empty name) (sound_empty name) es
    have hright := (SameOn.refl key ({} : Lock ι)).foldl (sound_empty name) (sound_empty name) es'
    rw [← hevents] at hright
    exact hleft.tickets.trans hright.tickets.symm
  · have hleft := sameOn_foldl_settle (SameOn.refl key ({} : Lock ι)) (sound_empty name) (sound_empty name) settled_empty es
    have hright := sameOn_foldl_settle (SameOn.refl key ({} : Lock ι)) (sound_empty name) (sound_empty name) settled_empty es'
    rw [← hevents] at hright
    exact hleft.tickets.trans hright.tickets.symm

/-- Two operations in a row are cancelled in the queue, the later one first, and then the first one fails: the last one is let in.
What happens on another key does not matter. -/
theorem no_wakeup_is_lost_cancelled :
    let name : Nat → String := fun i => if i = 4 then "other" else if i = 1 then " K" else "k"
    let es : List (Event Nat) :=
      [⟨0, .call⟩, ⟨1, .call⟩, ⟨2, .call⟩, ⟨3, .call⟩, ⟨2, .cancel⟩, ⟨2, .turn⟩, ⟨1, .cancel⟩, ⟨1, .turn⟩, ⟨0, .finish .failure⟩,
        ⟨1, .turn⟩, ⟨2, .turn⟩, ⟨3, .turn⟩]
    (run name es).Settled ∧ (∃ t, (run name es).earliest? "k" = some t ∧ t.phase = .inside) ∧ (run name es).isLocked "K " = true ∧
      onKey "k" (run name es).tickets = onKey "k" (run name (⟨4, .call⟩ :: es ++ [⟨4, .cancel⟩])).tickets := by
  intro name es
  obtain ⟨-, hfirst, hlocked, halone⟩ := no_wakeup_is_lost name
  have hsettled : (run name es).Settled := (sound_run name es).settled_iff.mpr (by decide)
  have hcalled : (run name es).hasCalled 3 = true := by decide
  have hnot : ¬(run name es).isOver 3 = true := by decide
  have hkey : keyOf (name 3) = "k" := by decide
  have hinside := hfirst es 3 hsettled hcalled hnot
  rw [hkey] at hinside
  have hheld : (run name es).isLocked "K " = true := (hlocked es "K " hsettled).mpr ⟨3, hcalled, by decide, hnot⟩
  have hsame := halone es (⟨4, .call⟩ :: es ++ [⟨4, .cancel⟩]) "k" (by decide)
  exact ⟨hsettled, hinside, hheld, hsame.1⟩

end UserScripts.Lock
