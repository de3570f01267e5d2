import UserScripts.Proofs.Lock.Order

/-!
# Keys do not know of each other

What has happened on a key depends on the events of the operations on that key alone: an event on another key changes nothing on it,
and an event on the key does the same whatever has happened elsewhere. Main statements: `SameOn.foldl` and `SameOn.settle`.
-/

namespace UserScripts.Lock

variable {ι : Type} [DecidableEq ι]

/-- Two locks that have the same tickets on a key and keep the same newest one. -/
structure SameOn (key : String) (l l' : Lock ι) : Prop where
  tickets : onKey key l.tickets = onKey key l'.tickets
  tail : l.tails.get? key = l'.tails.get? key

variable {name : ι → String} {key : String} {l l' l'' : Lock ι} {i : ι} {t t' : Ticket ι}

omit [DecidableEq ι] in
theorem SameOn.refl (key : String) (l : Lock ι) : SameOn key l l :=
  ⟨rfl, rfl⟩

omit [DecidableEq ι] in
theorem SameOn.symm (h : SameOn key l l') : SameOn key l' l :=
  ⟨h.tickets.symm, h.tail.symm⟩

omit [DecidableEq ι] in
theorem SameOn.trans (h : SameOn key l l') (h' : SameOn key l' l'') : SameOn key l l'' :=
  ⟨h.tickets.trans h'.tickets, h.tail.trans h'.tail⟩

/-! ## Events on other keys -/

/-- An event on another key changes nothing on the key. -/
theorem Sound.sameOn_step (h : l.Sound name) {e : Event ι} (hkey : keyOf (name e.owner) ≠ key) : SameOn key (l.step name e) l := by
  have heffect := effect_step name l e
  generalize l.step name e = l' at heffect
  cases heffect with
  | nothing => exact .refl key l
  | drawn hnew =>
    refine ⟨?_, ?_⟩
    · rw [onKey_cons, if_neg]
      exact hkey
    · rw [Keyed.get?_put, if_neg hkey]
  | @moved t t' ht hmoves tails htails =>
    obtain ⟨hmem, howner⟩ := ticket?_eq_some ht
    have hother : t.key ≠ key := by
      rw [h.keyed t hmem, howner]
      exact hkey
    refine ⟨?_, ?_⟩
    · show onKey key (l.put t').tickets = onKey key l.tickets
      rw [h.onKey_put hmem hmoves.owner hmoves.key]
      refine (List.map_congr_left fun u hu => if_neg fun hu' => hother ?_).trans (List.map_id _)
      obtain ⟨hu, hukey⟩ := mem_onKey.mp hu
      rw [← h.eq_of_owner hu hmem (hu'.trans hmoves.owner), hukey]
    · rcases htails with rfl | ⟨-, -, rfl⟩
      · rfl
      · rw [Keyed.get?_erase, if_neg hother]

/-! ## Events on the key -/

/-- The ticket of an operation on a key is found among those of the key. -/
theorem Sound.ticket?_eq_some_iff (h : l.Sound name) (hkey : keyOf (name i) = key) :
    l.ticket? i = some t ↔ t ∈ onKey key l.tickets ∧ t.owner = i := by
  constructor
  · intro hfind
    obtain ⟨hmem, rfl⟩ := ticket?_eq_some hfind
    exact ⟨mem_onKey.mpr ⟨hmem, (h.keyed t hmem).trans hkey⟩, rfl⟩
  · rintro ⟨hmem, rfl⟩
    exact h.ticket?_of_mem (mem_onKey.mp hmem).1

/-- On a key on which two locks agree an owner has the same ticket in both. -/
theorem SameOn.ticket? (hsame : SameOn key l l') (h : l.Sound name) (h' : l'.Sound name) (hkey : keyOf (name i) = key) :
    l.ticket? i = l'.ticket? i := by
  refine Option.ext fun t => ?_
  rw [h.ticket?_eq_some_iff hkey, h'.ticket?_eq_some_iff hkey, hsame.tickets]

/-- On a key on which two locks agree a ticket that is found in one of them is a ticket of both. -/
theorem SameOn.mem_of_ticket? (hsame : SameOn key l l') (h : l.Sound name) (h' : l'.Sound name) (hkey : keyOf (name i) = key)
    (hfind : l.ticket? i = some t) : t ∈ l.tickets ∧ t ∈ l'.tickets ∧ t.key = key := by
  have hfind' := hfind
  rw [hsame.ticket? h h' hkey] at hfind'
  obtain ⟨ht, howner⟩ := ticket?_eq_some hfind
  exact ⟨ht, (ticket?_eq_some hfind').1, by rw [h.keyed t ht, howner, hkey]⟩

/-- On a key on which two locks agree the same is left to wait for. -/
theorem SameOn.isFree (hsame : SameOn key l l') (h : l.Sound name) (h' : l'.Sound name) {previous : Option ι}
    (hkey : ∀ p, previous = some p → keyOf (name p) = key) : l.isFree previous = l'.isFree previous := by
  cases previous with
  | none => rfl
  | some p => rw [Lock.isFree, hsame.ticket? h h' (hkey p rfl), Lock.isFree]

/-- Whoever a ticket waits for has called on the same key. -/
theorem Sound.key_of_previous (h : l.Sound name) (ht : t ∈ l.tickets) {p : ι} (hp : t.previous = some p) :
    keyOf (name p) = t.key := by
  obtain ⟨newer, older, hsplit, hprevious⟩ := h.exists_older ht
  obtain ⟨u, hu, rfl, hukey⟩ := hprevious p hp
  have hmem : u ∈ l.tickets := hsplit ▸ List.mem_append_right _ (List.mem_cons_of_mem _ hu)
  rw [← h.keyed u hmem, hukey]

omit [DecidableEq ι] in
/-- The newest ticket that is kept for a key is one of the key. -/
theorem Sound.key_of_tail (h : l.Sound name) {p : ι} (hp : l.tails.get? key = some p) : keyOf (name p) = key := by
  have hfollows := h.tail key
  rw [hp] at hfollows
  obtain ⟨u, hu, rfl⟩ := hfollows.exists_mem
  obtain ⟨hu, hukey⟩ := mem_onKey.mp hu
  rw [← h.keyed u hu, hukey]

/-- Two locks still agree on a key after a ticket of it is replaced in both. -/
theorem SameOn.put (hsame : SameOn key l l') (h : l.Sound name) (h' : l'.Sound name) (ht : t ∈ l.tickets) (ht' : t ∈ l'.tickets)
    (howner : t'.owner = t.owner) (hkey : t'.key = t.key) : SameOn key (l.put t') (l'.put t') := by
  refine ⟨?_, hsame.tail⟩
  rw [h.onKey_put ht howner hkey, h'.onKey_put ht' howner hkey, hsame.tickets]

/-- Two locks still agree on a key after an owner of one of its tickets leaves in both. -/
theorem SameOn.leave (hsame : SameOn key l l') (h : l.Sound name) (h' : l'.Sound name) (ht : t ∈ l.tickets) (ht' : t ∈ l'.tickets)
    (hkey : t.key = key) (phase : Phase) : SameOn key (l.leave t phase) (l'.leave t phase) := by
  have hfree : l.isFree t.previous = l'.isFree t.previous :=
    hsame.isFree h h' fun p hp => (h.key_of_previous ht hp).trans hkey
  refine ⟨?_, ?_⟩
  · show onKey key (l.put { t with phase, released := l.isFree t.previous }).tickets =
      onKey key (l'.put { t with phase, released := l'.isFree t.previous }).tickets
    rw [hfree]
    have hput : SameOn key (l.put { t with phase, released := l'.isFree t.previous })
        (l'.put { t with phase, released := l'.isFree t.previous }) := hsame.put h h' ht ht' rfl rfl
    exact hput.tickets
  · simp only [Lock.leave, hfree, hkey, hsame.tail]
    split
    · rw [Keyed.get?_erase, Keyed.get?_erase, if_pos rfl, if_pos rfl]
    · exact hsame.tail

/-- Drawing a ticket for a key. -/
theorem SameOn.draw (hsame : SameOn key l l') (h : l.Sound name) (h' : l'.Sound name) (hkey : keyOf (name i) = key) :
    SameOn key (l.draw i (name i)) (l'.draw i (name i)) := by
  have hticket := hsame.ticket? h h' hkey
  have hnew : l.newTicket i (name i) = l'.newTicket i (name i) := by
    have hfree : l.isFree (l'.tails.get? key) = l'.isFree (l'.tails.get? key) :=
      hsame.isFree h h' fun p hp => h'.key_of_tail hp
    simp only [newTicket, hkey, hsame.tail, hfree]
  unfold Lock.draw
  rw [← hticket]
  cases l.ticket? i with
  | some t => exact hsame
  | none =>
    refine ⟨?_, ?_⟩
    · rw [onKey_cons, onKey_cons, hnew, hsame.tickets]
    · rw [Keyed.get?_put, Keyed.get?_put, if_pos hkey, if_pos hkey]

/-- Whether there is something to take notice of depends on the ticket and on what is left to wait for. -/
theorem isPending_congr (h : l.isFree t.previous = l'.isFree t.previous) : l.isPending t = l'.isPending t := by
  rw [isPending, isPending, h]

/-- Taking notice on a key. -/
theorem SameOn.proceed (hsame : SameOn key l l') (h : l.Sound name) (h' : l'.Sound name) (ht : t ∈ l.tickets) (ht' : t ∈ l'.tickets)
    (hkey : t.key = key) : SameOn key (l.proceed t) (l'.proceed t) := by
  unfold Lock.proceed
  split
  · split
    · exact hsame.leave h h' ht ht' hkey _
    · split
      · exact hsame.put h h' ht ht' rfl rfl
      · exact hsame.leave h h' ht ht' hkey _
  · exact hsame.put h h' ht ht' rfl rfl

/-- An event on a key does the same on it whatever has happened elsewhere. -/
theorem SameOn.step (hsame : SameOn key l l') (h : l.Sound name) (h' : l'.Sound name) {e : Event ι}
    (hkey : keyOf (name e.owner) = key) : SameOn key (l.step name e) (l'.step name e) := by
  have hticket := hsame.ticket? h h' hkey
  unfold Lock.step
  cases e.act with
  | call => exact hsame.draw h h' hkey
  | finish ending =>
    simp only [conclude, ← hticket]
    cases hfind : l.ticket? e.owner with
    | none => exact hsame
    | some t =>
      obtain ⟨ht, ht', htkey⟩ := hsame.mem_of_ticket? h h' hkey hfind
      simp only
      split
      · exact hsame.put h h' ht ht' rfl rfl
      · exact hsame.leave h h' ht ht' htkey _
      · exact hsame
  | cancel =>
    simp only [stop, ← hticket]
    cases hfind : l.ticket? e.owner with
    | none => exact hsame
    | some t =>
      obtain ⟨ht, ht', htkey⟩ := hsame.mem_of_ticket? h h' hkey hfind
      simp only
      split
      · exact hsame.put h h' ht ht' rfl rfl
      · exact hsame.leave h h' ht ht' htkey _
      · exact hsame
  | turn =>
    simp only [turn, ← hticket]
    cases hfind : l.ticket? e.owner with
    | none => exact hsame
    | some t =>
      obtain ⟨ht, ht', htkey⟩ := hsame.mem_of_ticket? h h' hkey hfind
      simp only [isPending_congr (hsame.isFree h h' fun p hp => (h.key_of_previous ht hp).trans htkey)]
      split
      · exact hsame.proceed h h' ht ht' htkey
      · exact hsame

/-! ## Runs -/

/-- What has happened on a key is what the events on the key alone make happen. -/
theorem SameOn.foldl (hsame : SameOn key l l') (h : l.Sound name) (h' : l'.Sound name) (es : List (Event ι)) :
    SameOn key (es.foldl (Lock.step name) l) ((es.filter fun e => keyOf (name e.owner) = key).foldl (Lock.step name) l') := by
  induction es generalizing l l' with
  | nil => exact hsame
  | cons e es ih =>
    rw [List.foldl_cons, List.filter_cons]
    split
    · next hkey =>
      rw [decide_eq_true_eq] at hkey
      exact ih (hsame.step h h' hkey) (h.step e) (h'.step e)
    · next hkey =>
      rw [decide_eq_true_eq] at hkey
      exact ih ((h.sameOn_step hkey).trans hsame) (h.step e) h'

/-- The events of giving everyone a turn. -/
def turns (tickets : List (Ticket ι)) : List (Event ι) :=
  tickets.reverse.map fun t => ⟨t.owner, .turn⟩

/-- Settling is giving everyone a turn by events. -/
theorem settle_eq (name : ι → String) (l : Lock ι) : l.settle = (turns l.tickets).foldl (step name) l := by
  rw [settle, turns, List.foldl_map, List.foldl_reverse]
  rfl

/-- Settling keeps the invariant of the lock. -/
theorem Sound.settle (h : l.Sound name) : l.settle.Sound name := by
  rw [settle_eq name]
  exact h.foldl _

omit [DecidableEq ι] in
/-- Giving everyone a turn gives everyone on the key a turn. -/
theorem Sound.filter_turns (h : l.Sound name) (key : String) :
    ((turns l.tickets).filter fun e => keyOf (name e.owner) = key) = turns (onKey key l.tickets) := by
  rw [turns, List.filter_map, List.filter_reverse, turns, onKey]
  refine congrArg _ (congrArg _ (List.filter_congr fun t ht => ?_))
  rw [Function.comp_apply, ← h.keyed t ht]
  rfl

/-- Giving everyone a turn does the same on a key whatever has happened elsewhere. -/
theorem SameOn.settle (hsame : SameOn key l l') (h : l.Sound name) (h' : l'.Sound name) : SameOn key l.settle l'.settle := by
  have hleft := hsame.foldl h h' (turns l.tickets)
  have hright := (SameOn.refl key l').foldl h' h' (turns l'.tickets)
  rw [h.filter_turns, hsame.tickets] at hleft
  rw [h'.filter_turns] at hright
  rw [settle_eq name l, settle_eq name l']
  exact hleft.trans hright.symm

end UserScripts.Lock
