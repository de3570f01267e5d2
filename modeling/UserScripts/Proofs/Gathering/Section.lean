import UserScripts.Proofs.Gathering.Ring

/-!
# Operations that exclude each other

An operation with a key of its own asks for it first and gives it back last, so all that it does it does while it holds the key. Of two
operations whose keys are the same to the lock, then, the one does all that it does before the other does anything, in whatever order
they have their steps. Main definition: `Gathering.deeds`. Main statement: `not_interleaved`.
-/

namespace UserScripts

/-! ## Routines that hold a key -/

/-- Every query has some answer. -/
theorem Query.nonempty_answer (q : Query) : Nonempty q.Answer := by
  cases q <;> first | exact ⟨()⟩ | exact ⟨none⟩ | exact ⟨.ok ""⟩ | exact ⟨.ok ()⟩

namespace Routine

variable {α β : Type} {n : Nat} {held now : List String}

/-- A routine that starts with some number of keys and asks for nothing any more once it has given back the last of them. -/
inductive Sheltered : Nat → Routine α → Prop where
  | done (outcome : Except Failure α) : Sheltered 0 (.done outcome)
  | ask {n : Nat} {q : Query} {next : q.Answer → Routine α} (hq : q.isAboutKey = false) (hnext : ∀ a, Sheltered (n + 1) (next a)) :
      Sheltered (n + 1) (.ask q next)
  | acquire {n : Nat} {key : String} {next : Unit → Routine α} (hnext : Sheltered (n + 2) (next ())) :
      Sheltered (n + 1) (.ask (.acquire key) next)
  | release {n : Nat} {key : String} {next : Unit → Routine α} (hnext : Sheltered n (next ())) :
      Sheltered (n + 1) (.ask (.release key) next)

namespace Sheltered

/-- A sheltered routine followed by something that asks for nothing is sheltered as before. -/
theorem bind_done {r : Routine α} {f : α → Routine β} (hr : Sheltered n r) (hf : ∀ a, ∃ outcome, f a = .done outcome) :
    Sheltered n (r >>= f) := by
  induction hr with
  | done outcome =>
    cases outcome with
    | ok a =>
      obtain ⟨outcome, ha⟩ := hf a
      rw [done_ok_bind, ha]
      exact .done outcome
    | error e => exact .done (.error e)
  | ask hq _ ih => exact .ask hq ih
  | acquire _ ih => exact .acquire ih
  | release _ ih => exact .release ih

/-- A routine that may ask for nothing any more has ended. -/
theorem exists_eq_done {r : Routine α} (h : Sheltered 0 r) : ∃ outcome, r = .done outcome := by
  cases h with
  | done outcome => exact ⟨outcome, rfl⟩

/-- After a query that is not about a key as many keys are held as before. -/
theorem of_ask {q : Query} {next : q.Answer → Routine α} (h : Sheltered n (.ask q next)) (hq : q.isAboutKey = false) (a : q.Answer) :
    Sheltered n (next a) := by
  cases h with
  | ask _ hnext => exact hnext a
  | acquire => cases hq
  | release => cases hq

/-- After a key is got there is one more to give back. -/
theorem of_acquire {key : String} {next : Unit → Routine α} (h : Sheltered n (.ask (.acquire key) next)) :
    Sheltered (n + 1) (next ()) := by
  cases h with
  | ask hq => cases hq
  | acquire hnext => exact hnext

/-- After a key is given back there is one less to give back. -/
theorem of_release {key : String} {next : Unit → Routine α} (h : Sheltered (n + 1) (.ask (.release key) next)) :
    Sheltered n (next ()) := by
  cases h with
  | ask hq => cases hq
  | release hnext => exact hnext

end Sheltered

/-- A routine that is to end with some keys, and asks for others only while it holds one, never holds none. -/
theorem Nests.ne_nil {r : Routine α} (h : Nests (fun held _ => held ≠ []) held now r) (hheld : held ≠ []) : now ≠ [] := by
  induction h with
  | done outcome => exact hheld
  | @ask now q next _ _ ih =>
    obtain ⟨a⟩ := q.nonempty_answer
    exact ih a
  | acquire allowed => exact allowed
  | release => exact List.cons_ne_nil _ _

/-- A routine that acts only under a key, and gives back the keys that it was given, is sheltered by them. -/
theorem Nests.sheltered {r : Routine α} {f : Except Failure α → Routine β} (h : Nests (fun held _ => held ≠ []) held now r)
    (hheld : held ≠ []) (hf : ∀ outcome, Sheltered held.length (f outcome)) : Sheltered now.length (r.attempt >>= f) := by
  have hpositive : ∀ {keys : List String}, keys ≠ [] → ∃ n, keys.length = n + 1 := fun h =>
    Nat.exists_eq_succ_of_ne_zero (mt List.eq_nil_of_length_eq_zero h)
  induction h with
  | done outcome => exact hf outcome
  | @ask now q next hq hnext ih =>
    obtain ⟨n, hn⟩ := hpositive ((Nests.ask hq hnext).ne_nil hheld)
    rw [hn] at ih ⊢
    exact .ask hq ih
  | @acquire now key next allowed _ ih =>
    obtain ⟨n, hn⟩ := hpositive allowed
    rw [List.length_cons, hn] at ih
    rw [hn]
    exact .acquire ih
  | release _ ih => exact .release ih

/-- Holding a key shelters a routine that keeps it to its end. -/
theorem sheltered_holding {key : String} {r : Routine α} (h : Nests (fun held _ => held ≠ []) [key] [key] r) :
    ∃ next, Manager.holding key r = .ask (.acquire key) next ∧ Sheltered 1 (next ()) :=
  ⟨_, rfl, h.sheltered (List.cons_ne_nil _ _) fun outcome => .release (.done outcome)⟩

end Routine

namespace Request

open Routine Manager

/-- The key that a request holds while it does anything, if it is about one script on one target, or about one target. -/
def key? : Request → Option String
  | .operate target op => some (op.key target)
  | .move e _ => some (sourceKey e)
  | _ => none

/-- A request with a key does nothing at all, or it asks for the key first. -/
theorem sheltered {m : Manager} {request : Request} {key : String} (h : request.key? = some key) :
    (∃ outcome, request.routine m = .done outcome) ∨
      ∃ next, request.routine m = .ask (.acquire key) next ∧ Sheltered 1 (next ()) := by
  have hholding : ∀ {r : Routine Bool}, Nests (fun held _ => held ≠ []) [key] [key] r →
      ∃ next, (holding key r >>= fun changed => pure (Reply.changed changed)) = .ask (.acquire key) next ∧ Sheltered 1 (next ()) := by
    intro r hr
    obtain ⟨next, hnext, hsheltered⟩ := sheltered_holding hr
    exact ⟨fun a => next a >>= _, by rw [hnext]; rfl, hsheltered.bind_done fun changed => ⟨_, rfl⟩⟩
  cases request with
  | operate target op =>
    obtain rfl := Option.some.inj h
    obtain ⟨r, hr, hkeyless⟩ := op.exists_holding m target
    rw [routine, hr]
    exact Or.inr (hholding hkeyless.nests)
  | move e destination =>
    obtain rfl := Option.some.inj h
    by_cases hsame : destination = e.target
    · rw [routine, Manager.move, if_pos hsame]
      exact Or.inl ⟨_, rfl⟩
    · obtain ⟨r, hr, hnests⟩ := exists_holding_move m e hsame
      rw [routine, hr]
      exact Or.inr (hholding (hnests _ (List.cons_ne_nil _ _)))
  | _ => cases h

end Request

namespace Gathering

open Routine

variable {α : Type} {env : Surroundings} {g g' : Gathering α} {i j k : Nat} {key key' : String} {member after : Member α}

/-! ## Deeds -/

/-- What the operation in a place asks next, unless it is about a key. -/
def deed? (g : Gathering α) (i : Nat) : Option (Nat × Query) :=
  match g.members[i]? with
  | none => none
  | some member =>
    match member.rest with
    | .done _ => none
    | .ask q _ => if q.isAboutKey then none else some (i, q)

/-- All that the operations ask while they have their steps in some order, each question with the place of the operation. -/
def deeds (env : Surroundings) (g : Gathering α) : List Nat → List (Nat × Query)
  | [] => []
  | i :: order => (g.deed? i).toList ++ deeds env ((g.step env i).getD g) order

/-- What an operation asks next is asked from its own place, is not about a key, and is what it is halted at. -/
theorem deed?_eq_some {d : Nat × Query} (h : g.deed? i = some d) :
    d.1 = i ∧ d.2.isAboutKey = false ∧ ∃ member next, g.members[i]? = some member ∧ member.rest = .ask d.2 next := by
  unfold deed? at h
  split at h
  · cases h
  · next member hat =>
    split at h
    · cases h
    · next q next hrest =>
      split at h
      · cases h
      · next hq =>
        obtain rfl := Option.some.inj h
        exact ⟨rfl, by simpa using hq, member, next, hat, hrest⟩

/-! ## Before, while and after an operation holds its key -/

/-- The operation in a place is still to ask for its key. -/
structure Outside (key : String) (member : Member α) : Prop where
  sheltered : ∃ next, member.rest = .ask (.acquire key) next ∧ Sheltered 1 (next ())
  count : member.count = 0
  held : member.held = []

/-- The operation in a place holds its key. -/
structure Inside (i : Nat) (key : String) (member : Member α) : Prop where
  held : ∃ nested, member.held = nested ++ [⟨i, 0, key⟩]
  sheltered : Sheltered member.held.length member.rest

/-- The operation in a place has ended. -/
def Over (member : Member α) : Prop :=
  ∃ outcome, member.rest = .done outcome

/-- What an operation with a key of its own goes through. -/
def Engaged (i : Nat) (key : String) (member : Member α) : Prop :=
  Outside key member ∨ Inside i key member ∨ Over member

/-- What holds of the operation in a place. -/
def At (g : Gathering α) (i : Nat) (P : Member α → Prop) : Prop :=
  ∃ member, g.members[i]? = some member ∧ P member

/-- The step of one operation leaves every other operation as it is. -/
theorem Step.member_of_ne (h : Step env g k g') (hne : k ≠ i) : g'.members[i]? = g.members[i]? := by
  cases h with
  | call => exact List.getElem?_set_ne hne
  | enter => exact List.getElem?_set_ne hne
  | @release member =>
    unfold Gathering.release
    split <;> exact List.getElem?_set_ne hne
  | answer => exact List.getElem?_set_ne hne

/-- What holds of an operation that is put in its place holds of the place. -/
theorem at_put {lock : Lock Caller} {session : Session} {P : Member α → Prop} (hat : g.members[i]? = some member) (h : P after) :
    At { session, lock, members := g.members.set i after } i P :=
  ⟨after, List.getElem?_set_self (List.getElem?_eq_some_iff.mp hat).1, h⟩

/-- An operation that is still to ask for its key calls for it or gets it. -/
theorem Outside.step (h : Outside key member) (hat : g.members[i]? = some member) (hstep : Step env g i g') :
    At g' i fun after => Outside key after ∨ Inside i key after := by
  obtain ⟨next, hrest, hsheltered⟩ := h.sheltered
  cases hstep with
  | call hat' =>
    obtain rfl := Option.some.inj (hat.symm.trans hat')
    exact at_put hat (Or.inl ⟨h.sheltered, h.count, h.held⟩)
  | enter hat' hrest' =>
    obtain rfl := Option.some.inj (hat.symm.trans hat')
    rw [hrest] at hrest'
    cases hrest'
    refine at_put hat (Or.inr ⟨⟨[], ?_⟩, ?_⟩)
    · rw [h.count, h.held, List.nil_append]
    · rw [h.held]
      exact hsheltered
  | release hat' hrest' =>
    obtain rfl := Option.some.inj (hat.symm.trans hat')
    rw [hrest] at hrest'
    cases hrest'
  | answer hat' hrest' hq =>
    obtain rfl := Option.some.inj (hat.symm.trans hat')
    rw [hrest] at hrest'
    cases hrest'
    cases hq

/-- An operation that holds its key keeps it until it ends. -/
theorem Inside.step (h : Inside i key member) (hat : g.members[i]? = some member) (hstep : Step env g i g') :
    At g' i fun after => Inside i key after ∨ Over after := by
  obtain ⟨nested, hheld⟩ := h.held
  have hsheltered := h.sheltered
  cases hstep with
  | call hat' =>
    obtain rfl := Option.some.inj (hat.symm.trans hat')
    exact at_put hat (Or.inl ⟨h.held, hsheltered⟩)
  | enter hat' hrest =>
    obtain rfl := Option.some.inj (hat.symm.trans hat')
    rw [hrest] at hsheltered
    exact at_put hat (Or.inl ⟨⟨_ :: nested, by rw [hheld]; rfl⟩, hsheltered.of_acquire⟩)
  | release hat' hrest =>
    obtain rfl := Option.some.inj (hat.symm.trans hat')
    rw [hrest] at hsheltered
    unfold Gathering.release
    cases nested with
    | nil =>
      rw [hheld] at hsheltered ⊢
      exact at_put hat (Or.inr hsheltered.of_release.exists_eq_done)
    | cons c nested =>
      rw [hheld] at hsheltered ⊢
      exact at_put hat (Or.inl ⟨⟨nested, rfl⟩, hsheltered.of_release⟩)
  | answer hat' hrest hq =>
    obtain rfl := Option.some.inj (hat.symm.trans hat')
    rw [hrest] at hsheltered
    exact at_put hat (Or.inl ⟨h.held, hsheltered.of_ask hq _⟩)

/-- What holds of an operation in a place when some operation has had a step, if it has one. -/
theorem at_next {P Q : Member α → Prop} (h : At g i P) (hQ : ∀ member, P member → Q member)
    (hstep : ∀ member g', g.members[i]? = some member → P member → Step env g i g' → At g' i Q) (k : Nat) :
    At ((g.step env k).getD g) i Q := by
  obtain ⟨member, hat, hP⟩ := h
  cases hk : g.step env k with
  | none => exact ⟨member, hat, hQ member hP⟩
  | some g' =>
    rw [step_eq_some_iff] at hk
    by_cases hne : k = i
    · subst hne
      exact hstep member g' hat hP hk
    · exact ⟨member, (hk.member_of_ne hne).trans hat, hQ member hP⟩

/-- An operation that is over stays over, whoever has the next step. -/
theorem at_over_next (env : Surroundings) (h : At g i Over) (k : Nat) : At ((g.step env k).getD g) i Over := by
  refine at_next h (fun _ h => h) (fun member g' hat hover hstep => ?_) k
  obtain ⟨outcome, hrest⟩ := hover
  have hnone : g.step env i = none := by simp [step, hat, hrest]
  exact absurd hnone hstep.ne_none

/-- An operation that holds its key holds it after the next step, or it is over. -/
theorem at_inside_next (env : Surroundings) (h : At g i (Inside i key)) (k : Nat) :
    At ((g.step env k).getD g) i fun after => Inside i key after ∨ Over after :=
  at_next h (fun _ h => Or.inl h) (fun _ _ hat hinside hstep => hinside.step hat hstep) k

/-- An operation stays one of its key, whoever has the next step. -/
theorem at_engaged_next (env : Surroundings) (h : At g i (Engaged i key)) (k : Nat) :
    At ((g.step env k).getD g) i (Engaged i key) := by
  refine at_next h (fun _ h => h) (fun member g' hat hengaged hstep => ?_) k
  rcases hengaged with houtside | hinside | hover
  · obtain ⟨after, hat', h⟩ := houtside.step hat hstep
    exact ⟨after, hat', h.imp_right Or.inl⟩
  · obtain ⟨after, hat', h⟩ := hinside.step hat hstep
    exact ⟨after, hat', Or.inr h⟩
  · obtain ⟨after, hat', h⟩ := at_over_next env (i := i) ⟨member, hat, hover⟩ i
    rw [step_eq_some_iff.mpr hstep, Option.getD_some] at hat'
    exact ⟨after, hat', Or.inr (Or.inr h)⟩

/-- What holds of operations side by side holds after the next step, if there is one. -/
theorem Sound.next_step (h : g.Sound) (env : Surroundings) (k : Nat) : ((g.step env k).getD g).Sound := by
  cases hk : g.step env k with
  | none => exact h
  | some g' => exact h.step (step_eq_some_iff.mp hk)

/-- What an operation with a key does it does while it holds the key. -/
theorem inside_of_deed? (h : At g i (Engaged i key)) {d : Nat × Query} (hd : g.deed? i = some d) : At g i (Inside i key) := by
  obtain ⟨-, hq, member, next, hat, hrest⟩ := deed?_eq_some hd
  obtain ⟨member', hat', hengaged⟩ := h
  obtain rfl := Option.some.inj (hat.symm.trans hat')
  rcases hengaged with houtside | hinside | ⟨outcome, hdone⟩
  · obtain ⟨next', hrest', -⟩ := houtside.sheltered
    rw [hrest] at hrest'
    obtain ⟨hquery, -⟩ := Routine.ask.inj hrest'
    rw [hquery] at hq
    cases hq
  · exact ⟨member, hat, hinside⟩
  · rw [hrest] at hdone
    cases hdone

/-- Two operations never hold the same key. -/
theorem Sound.not_inside (h : g.Sound) (hne : i ≠ j) (hkey : Lock.keyOf key = Lock.keyOf key') (hi : At g i (Inside i key)) :
    ¬At g j (Inside j key') := by
  rintro ⟨other, hat', ⟨⟨nested', hheld'⟩, -⟩⟩
  obtain ⟨member, hat, ⟨⟨nested, hheld⟩, -⟩⟩ := hi
  have hin := ((h.fits i member hat).held ⟨i, 0, key⟩ (by rw [hheld]; simp)).2.2
  have hin' := ((h.fits j other hat').held ⟨j, 0, key'⟩ (by rw [hheld']; simp)).2.2
  have hkeys : Lock.keyOf (Caller.key ⟨i, 0, key⟩) = Lock.keyOf (Caller.key ⟨j, 0, key'⟩) := hkey
  exact hne (congrArg Caller.member (h.lock.eq_of_inside hkeys hin hin'))

/-! ## Runs -/

/-- A list without its first element, if that is of no use for what is looked for. -/
theorem sublist_of_deeds_cons {places : List Nat} {order : List Nat}
    (h : places.Sublist ((deeds env g (k :: order)).map Prod.fst)) :
    places.Sublist ((deeds env ((g.step env k).getD g) order).map Prod.fst) ∨
      ∃ d rest, g.deed? k = some d ∧ places = k :: rest ∧ rest.Sublist ((deeds env ((g.step env k).getD g) order).map Prod.fst) := by
  rw [deeds, List.map_append] at h
  cases hd : g.deed? k with
  | none =>
    rw [hd] at h
    exact Or.inl h
  | some d =>
    rw [hd, Option.toList_some, List.map_singleton, List.singleton_append, (deed?_eq_some hd).1] at h
    cases h with
    | cons _ h => exact Or.inl h
    | cons_cons _ h => exact Or.inr ⟨d, _, rfl, rfl, h⟩

/-- An operation that has ended does nothing. -/
theorem not_mem_deeds (h : At g i Over) (order : List Nat) : i ∉ (deeds env g order).map Prod.fst := by
  induction order generalizing g with
  | nil => exact List.not_mem_nil
  | cons k order ih =>
    rw [← List.singleton_sublist]
    intro hmem
    rcases sublist_of_deeds_cons hmem with hrest | ⟨d, rest, hd, heq, -⟩
    · exact ih (at_over_next env h k) (List.singleton_sublist.mp hrest)
    · obtain ⟨rfl, -⟩ := List.cons.inj heq
      obtain ⟨-, -, member, next, hat, hask⟩ := deed?_eq_some hd
      obtain ⟨member', hat', outcome, hdone⟩ := h
      obtain rfl := Option.some.inj (hat.symm.trans hat')
      rw [hask] at hdone
      cases hdone

/-- From the time at which an operation holds its key, nobody else on the key does anything before the operation has ended. -/
theorem Sound.not_sublist_of_inside (h : g.Sound) (hne : i ≠ j) (hkey : Lock.keyOf key = Lock.keyOf key')
    (hi : At g i (Inside i key)) (hj : At g j (Engaged j key')) (order : List Nat) :
    ¬[j, i].Sublist ((deeds env g order).map Prod.fst) := by
  induction order generalizing g with
  | nil => exact fun hsub => List.cons_ne_nil _ _ (List.sublist_nil.mp hsub)
  | cons k order ih =>
    intro hsub
    rcases sublist_of_deeds_cons hsub with hrest | ⟨d, rest, hd, heq, -⟩
    · obtain ⟨after, hat, hinside | hover⟩ := at_inside_next env hi k
      · exact ih (h.next_step env k) ⟨after, hat, hinside⟩ (at_engaged_next env hj k) hrest
      · exact not_mem_deeds ⟨after, hat, hover⟩ order (hrest.subset (by simp))
    · obtain ⟨rfl, -⟩ := List.cons.inj heq
      exact h.not_inside hne hkey hi (inside_of_deed? hj hd)

/-- Of two operations with one key, none asks anything between two questions of the other. -/
theorem Sound.not_sublist (h : g.Sound) (hne : i ≠ j) (hkey : Lock.keyOf key = Lock.keyOf key')
    (hi : At g i (Engaged i key)) (hj : At g j (Engaged j key')) (order : List Nat) :
    ¬[i, j, i].Sublist ((deeds env g order).map Prod.fst) := by
  induction order generalizing g with
  | nil => exact fun hsub => List.cons_ne_nil _ _ (List.sublist_nil.mp hsub)
  | cons k order ih =>
    intro hsub
    rcases sublist_of_deeds_cons hsub with hrest | ⟨d, rest, hd, heq, hrest⟩
    · exact ih (h.next_step env k) (at_engaged_next env hi k) (at_engaged_next env hj k) hrest
    · obtain ⟨rfl, rfl⟩ := List.cons.inj heq
      obtain ⟨after, hat, hinside | hover⟩ := at_inside_next env (inside_of_deed? hi hd) i
      · exact (h.next_step env i).not_sublist_of_inside hne hkey ⟨after, hat, hinside⟩ (at_engaged_next env hj i) order hrest
      · exact not_mem_deeds ⟨after, hat, hover⟩ order (hrest.subset (by simp))

/-- At the start an operation is one of the key of its request. -/
theorem engaged_ofRequests (m : Manager) (s : Session) {requests : List Request} (h : requests[i]?.bind Request.key? = some key) :
    At (ofRequests m s requests) i (Engaged i key) := by
  obtain ⟨request, hrequest, hkey⟩ := Option.bind_eq_some_iff.mp h
  have hat : (ofRequests m s requests).members[i]? = some { rest := request.routine m } := by
    simp [ofRequests, ofRoutines, hrequest]
  refine ⟨_, hat, ?_⟩
  rcases Request.sheltered (m := m) hkey with hdone | hsheltered
  · exact Or.inr (Or.inr hdone)
  · exact Or.inl ⟨hsheltered, rfl, rfl⟩

/-- Requests on one key are never interleaved: nothing that the one does comes between two things that the other does. -/
theorem not_interleaved (m : Manager) (s : Session) {requests : List Request} (hne : i ≠ j)
    (hi : requests[i]?.bind Request.key? = some key) (hj : requests[j]?.bind Request.key? = some key')
    (hkey : Lock.keyOf key = Lock.keyOf key') (env : Surroundings) (order : List Nat) :
    ¬[i, j, i].Sublist (((ofRequests m s requests).deeds env order).map Prod.fst) :=
  (sound_ofRoutines s _).not_sublist hne hkey (engaged_ofRequests m s hi) (engaged_ofRequests m s hj) order

end Gathering

end UserScripts
