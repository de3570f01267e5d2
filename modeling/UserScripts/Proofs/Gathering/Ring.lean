import Mathlib.Data.Finset.Max
import UserScripts.Proofs.Gathering.Alone
import UserScripts.Proofs.Gathering.Halt
import UserScripts.Proofs.Manager.Nesting

/-!
# Moves in a ring

Requests of a session that are carried out side by side can keep each other from going on for ever, but only if some of them are
moves that form a ring: each of these takes its script to where another one of them takes the same script away. As long as there is no
such ring, some operation always has a step until all have ended. Main statement: `stuck_only_in_rings`.
-/

namespace UserScripts

variable {m : Manager} {env : Surroundings} {s t : Session} {requests : List Request} {places : Finset Nat} {i j : Nat}

/-- The key that the request in a place holds while it asks for another one, and that other one. -/
def nestingAt? (requests : List Request) (i : Nat) : Option (String × String) :=
  requests[i]?.bind Request.nesting?

/-- The move in a place asks for the key that the move in another one holds meanwhile. -/
def Awaits (requests : List Request) (i j : Nat) : Prop :=
  ∃ first key last, nestingAt? requests i = some (first, key) ∧ nestingAt? requests j = some (key, last)

/-- Moves each of which asks for the key that one of them holds meanwhile. -/
structure IsRing (requests : List Request) (places : Finset Nat) : Prop where
  nonempty : places.Nonempty
  awaits : ∀ i ∈ places, ∃ j ∈ places, Awaits requests i j

/-- Some moves of a ring are a ring of moves that hold different keys. -/
theorem IsRing.exists_distinct (h : IsRing requests places) : ∃ places, IsRing requests places ∧
    ∀ i ∈ places, ∀ j ∈ places, (nestingAt? requests i).map Prod.fst = (nestingAt? requests j).map Prod.fst → i = j := by
  induction places using Finset.strongInduction with
  | H places ih =>
    by_cases hdistinct : ∀ i ∈ places, ∀ j ∈ places,
        (nestingAt? requests i).map Prod.fst = (nestingAt? requests j).map Prod.fst → i = j
    · exact ⟨places, h, hdistinct⟩
    · push Not at hdistinct
      obtain ⟨i, hi, j, hj, hsame, hne⟩ := hdistinct
      -- Whoever awaits the second one of the two awaits the first one as well.
      refine ih (places.erase j) (Finset.erase_ssubset hj) ⟨⟨i, Finset.mem_erase.mpr ⟨hne, hi⟩⟩, fun k hk => ?_⟩
      obtain ⟨l, hl, first, key, last, hfirst, hlast⟩ := h.awaits k (Finset.mem_of_mem_erase hk)
      by_cases hlj : l = j
      · subst hlj
        rw [hlast, Option.map_some, Option.map_eq_some_iff] at hsame
        obtain ⟨⟨key', last'⟩, hlast', hkey⟩ := hsame
        obtain rfl : key' = key := hkey
        exact ⟨i, Finset.mem_erase.mpr ⟨hne, hi⟩, first, key', last', hfirst, hlast'⟩
      · exact ⟨l, Finset.mem_erase.mpr ⟨hlj, hl⟩, first, key, last, hfirst, hlast⟩

/-- There is no ring if the keys are ordered and every move asks for a later one than it holds. -/
theorem not_isRing_of_rank {rank : String → Nat}
    (hrank : ∀ i first second, nestingAt? requests i = some (first, second) → rank first < rank second) :
    ¬IsRing requests places := by
  intro h
  -- The move that holds the latest key would have to await one that holds an even later key.
  let held : Nat → Nat := fun i => (nestingAt? requests i).elim 0 fun keys => rank keys.1
  obtain ⟨i, hi, hmax⟩ := places.exists_max_image held h.nonempty
  obtain ⟨j, hj, first, key, last, hfirst, hlast⟩ := h.awaits i hi
  have hle : rank key ≤ rank first := by
    have hle := hmax j hj
    simp only [held, hfirst, hlast, Option.elim_some] at hle
    exact hle
  exact absurd (hrank i first key hfirst) (Nat.not_lt.mpr hle)

namespace Gathering

/-- Requests that are carried out side by side. -/
def ofRequests (m : Manager) (s : Session) (requests : List Request) : Gathering Reply :=
  ofRoutines s (requests.map (·.routine m))

variable {g g' : Gathering Reply}

/-! ## Whoever is stuck is in a ring -/

/-- Every operation holds and does what its request may. -/
def Conforms (requests : List Request) (g : Gathering Reply) : Prop :=
  ∀ (i : Nat) (member : Member Reply), g.members[i]? = some member → ∃ request : Request, requests[i]? = some request ∧
    Routine.Nests request.Rule [] (member.held.map Caller.key) member.rest

/-- At the start every operation conforms to its request. -/
theorem conforms_ofRequests (m : Manager) (s : Session) (requests : List Request) :
    Conforms requests (ofRequests m s requests) := by
  intro i member hat
  obtain ⟨request, hrequest, rfl⟩ : ∃ request, requests[i]? = some request ∧ { rest := request.routine m } = member := by
    simpa [ofRequests, ofRoutines, Option.map_eq_some_iff] using hat
  exact ⟨request, hrequest, request.nests m⟩

/-- An operation that takes a step within its rule leaves all operations conforming. -/
theorem Conforms.next (h : Conforms requests g) {request : Request} (hrequest : requests[i]? = some request) (after : Member Reply)
    (hafter : Routine.Nests request.Rule [] (after.held.map Caller.key) after.rest) {session : Session} {lock : Lock Caller} :
    Conforms requests { session, lock, members := g.members.set i after } := by
  intro j member hat
  rw [List.getElem?_set] at hat
  split at hat
  · next hij =>
    split at hat
    · obtain rfl := Option.some.inj hat
      exact ⟨request, hij ▸ hrequest, hafter⟩
    · nomatch hat
  · exact h j member hat

/-- A step leaves all operations conforming: the rule of a request is kept by every query that it makes. -/
theorem Conforms.step (h : Conforms requests g) (hstep : Step env g i g') : Conforms requests g' := by
  cases hstep with
  | @call member _ _ hat _ _ =>
    obtain ⟨request, hrequest, hnests⟩ := h _ _ hat
    exact h.next hrequest { member with called := true } hnests
  | @enter member key next hat hrest _ _ =>
    obtain ⟨request, hrequest, hnests⟩ := h _ _ hat
    rw [hrest] at hnests
    exact h.next hrequest { rest := next (), count := member.count + 1, held := ⟨i, member.count, key⟩ :: member.held }
      hnests.of_acquire.2
  | @release member _ _ hat hrest =>
    obtain ⟨request, hrequest, hnests⟩ := h _ _ hat
    rw [hrest] at hnests
    obtain ⟨before, hkeys, hnext⟩ := hnests.of_release
    obtain ⟨c, held, hheld, -, rfl⟩ := List.map_eq_cons_iff.mp hkeys
    rw [Gathering.release, hheld]
    exact h.next hrequest _ hnext
  | answer hat hrest hq =>
    obtain ⟨request, hrequest, hnests⟩ := h _ _ hat
    rw [hrest] at hnests
    exact h.next hrequest _ (hnests.of_ask hq _)

/-- All operations conform after any order of steps. -/
theorem Conforms.run (h : Conforms requests g) (env : Surroundings) (order : List Nat) : Conforms requests (g.run env order) :=
  run_induction (P := Conforms requests) (fun _ _ _ h hstep => h.step hstep) h order

/-- If no operation has a step, whoever holds a key is a move that awaits another one that holds a key. -/
theorem Sound.exists_awaits (h : g.Sound) (hconforms : Conforms requests g) (hnone : ∀ i, g.step env i = none)
    {member : Member Reply} (hat : g.members[i]? = some member) (hheld : member.held ≠ []) :
    ∃ j holder, g.members[j]? = some holder ∧ holder.held ≠ [] ∧ Awaits requests i j := by
  -- Whoever holds a key has not ended, so it waits for its second key.
  have hmove : ∀ k waiting, g.members[k]? = some waiting → ∀ c ∈ waiting.held,
      ∃ key, g.Wants k key ∧ nestingAt? requests k = some (Lock.keyOf c.key, Lock.keyOf key) := by
    intro k waiting hk c hc
    obtain ⟨request, hrequest, hnests⟩ := hconforms k waiting hk
    rcases wants_of_step_eq_none (hnone k) hk with ⟨outcome, hdone⟩ | ⟨key, hwants⟩
    · rw [hdone] at hnests
      rw [List.map_eq_nil_iff.mp hnests.of_done] at hc
      nomatch hc
    · refine ⟨key, hwants, ?_⟩
      obtain ⟨waiting', next, hk', hrest, -⟩ := hwants
      obtain rfl : waiting = waiting' := Option.some.inj (hk.symm.trans hk')
      rw [hrest] at hnests
      have hmem := List.mem_map_of_mem (f := Caller.key) hc
      rcases hnests.of_acquire.1 with hnil | ⟨first, hone, hnesting⟩
      · rw [hnil] at hmem
        nomatch hmem
      · rw [hone, List.mem_singleton] at hmem
        rw [nestingAt?, hrequest, Option.bind_some, hnesting, hmem]
  obtain ⟨c, hc⟩ := List.exists_mem_of_ne_nil _ hheld
  obtain ⟨key, hwants, hnesting⟩ := hmove i member hat c hc
  obtain ⟨j, holder, hholder, c', hc', hkey⟩ := h.exists_holder hnone hwants
  obtain ⟨last, -, hnesting'⟩ := hmove j holder hholder c' hc'
  rw [hkey] at hnesting'
  exact ⟨j, holder, hholder, List.ne_nil_of_mem hc', _, _, _, hnesting, hnesting'⟩

/-- Operations that are stuck hold a ring of keys. -/
theorem Sound.exists_ring (h : g.Sound) (hconforms : Conforms requests g) (hstuck : Stuck env g) :
    ∃ places, IsRing requests places := by
  obtain ⟨hover, hnone⟩ := hstuck
  let holders := (Finset.range g.members.length).filter fun i => (g.members[i]?.any fun member => !member.held.isEmpty) = true
  have hmem : ∀ {i}, i ∈ holders ↔ ∃ member, g.members[i]? = some member ∧ member.held ≠ [] := by
    intro i
    have hholds : (g.members[i]?.any fun member => !member.held.isEmpty) = true ↔
        ∃ member, g.members[i]? = some member ∧ member.held ≠ [] := by
      simp [Option.any_eq_true]
    rw [Finset.mem_filter, hholds, Finset.mem_range, and_iff_right_iff_imp]
    rintro ⟨member, hat, -⟩
    exact (List.getElem?_eq_some_iff.mp hat).1
  refine ⟨holders, ?_, fun i hi => ?_⟩
  · -- Somebody has not ended and waits for a key, which somebody holds.
    obtain ⟨member, hmember, hnot⟩ : ∃ member ∈ g.members, ∀ outcome, member.rest ≠ .done outcome := by
      rw [isOver, List.all_eq_false] at hover
      obtain ⟨member, hmember, hnot⟩ := hover
      refine ⟨member, hmember, fun outcome hdone => hnot ?_⟩
      rw [hdone]
    obtain ⟨i, hat⟩ := List.getElem?_of_mem hmember
    rcases wants_of_step_eq_none (hnone i) hat with ⟨outcome, hdone⟩ | ⟨key, hwants⟩
    · exact absurd hdone (hnot outcome)
    · obtain ⟨j, holder, hholder, c, hc, -⟩ := h.exists_holder hnone hwants
      exact ⟨j, hmem.mpr ⟨holder, hholder, List.ne_nil_of_mem hc⟩⟩
  · obtain ⟨member, hat, hheld⟩ := hmem.mp hi
    obtain ⟨j, holder, hholder, hholds, hawaits⟩ := h.exists_awaits hconforms hnone hat hheld
    exact ⟨j, hmem.mpr ⟨holder, hholder, hholds⟩, hawaits⟩

/-! ## A ring can get stuck -/

/-- The move in a place holds its first key and asks for its second one. -/
def IsBlocked (requests : List Request) (g : Gathering Reply) (i : Nat) : Prop :=
  ∃ member c key next, g.members[i]? = some member ∧ member.rest = .ask (.acquire key) next ∧ c ∈ member.held ∧
    nestingAt? requests i = some (Lock.keyOf c.key, Lock.keyOf key)

/-- A step of another operation changes nothing about an operation. -/
theorem Step.members_of_ne (h : Step env g i g') (hne : i ≠ j) : g'.members[j]? = g.members[j]? := by
  obtain ⟨before, after, -, hset, -⟩ := h.isAfter
  rw [hset, List.getElem?_set_ne hne]

/-- Moves in a ring that are all blocked stay so. -/
theorem Sound.isBlocked_step (h : g.Sound) (hring : IsRing requests places) (hblocked : ∀ i ∈ places, IsBlocked requests g i)
    (hstep : Step env g i g') : ∀ j ∈ places, IsBlocked requests g' j := by
  intro j hj
  by_cases hij : i = j
  · subst hij
    obtain ⟨member, c, key, next, hat, hrest, hc, hnesting⟩ := hblocked i hj
    have hlt := (List.getElem?_eq_some_iff.mp hat).1
    cases hstep with
    | @call member' _ _ hat' hrest' _ =>
      obtain rfl : member = member' := Option.some.inj (hat.symm.trans hat')
      exact ⟨_, c, key, next, List.getElem?_set_self hlt, hrest, hc, hnesting⟩
    | @enter member' key' _ hat' hrest' _ hinside =>
      exfalso
      obtain rfl : member = member' := Option.some.inj (hat.symm.trans hat')
      obtain rfl : key = key' := Query.acquire.inj (Routine.ask.inj (hrest.symm.trans hrest')).1
      -- The second key is the first one of somebody in the ring, who holds it.
      obtain ⟨j, hj, first, second, last, hfirst, hlast⟩ := hring.awaits i hj
      obtain ⟨holder, c', key', next', hat', hrest', hc', hnesting'⟩ := hblocked j hj
      obtain ⟨-, rfl⟩ := Prod.mk.inj (Option.some.inj (hnesting.symm.trans hfirst))
      obtain ⟨hkey, -⟩ := Prod.mk.inj (Option.some.inj (hnesting'.symm.trans hlast))
      obtain ⟨hplace, hcount, hin⟩ := (h.fits j holder hat').held c' hc'
      have hne : c' ≠ ⟨i, member.count, key⟩ := by
        rintro rfl
        obtain rfl : i = j := hplace
        obtain rfl : member = holder := Option.some.inj (hat.symm.trans hat')
        exact Nat.lt_irrefl _ hcount
      have heffect := Lock.effect_step Caller.key g.lock ⟨⟨i, member.count, key⟩, .turn⟩
      exact hne ((h.lock.effect heffect).eq_of_inside hkey ((heffect.isInside_of_ne hne).trans hin) hinside)
    | @release member' _ _ hat' hrest' =>
      obtain rfl : member = member' := Option.some.inj (hat.symm.trans hat')
      nomatch (Routine.ask.inj (hrest.symm.trans hrest')).1
    | @answer member' q _ hat' hrest' hq =>
      obtain rfl : member = member' := Option.some.inj (hat.symm.trans hat')
      obtain rfl : Query.acquire key = q := (Routine.ask.inj (hrest.symm.trans hrest')).1
      nomatch hq
  · obtain ⟨member, c, key, next, hat, hrest, hc, hnesting⟩ := hblocked j hj
    exact ⟨member, c, key, next, (hstep.members_of_ne hij).trans hat, hrest, hc, hnesting⟩

/-- Moves in a ring that are all blocked end up stuck. -/
theorem Sound.exists_stuck (h : g.Sound) (env : Surroundings) (hring : IsRing requests places) (hblocked : ∀ i ∈ places, IsBlocked requests g i) :
    ∃ order, Stuck env (g.run env order) := by
  obtain ⟨order, hnone⟩ := exists_halt env g
  refine ⟨order, ?_, hnone⟩
  have hkeeps : (g.run env order).Sound ∧ ∀ i ∈ places, IsBlocked requests (g.run env order) i := run_induction
    (P := fun g => g.Sound ∧ ∀ i ∈ places, IsBlocked requests g i)
    (fun g i g' ⟨hsound, hblocked⟩ hstep => ⟨hsound.step hstep, hsound.isBlocked_step hring hblocked hstep⟩) ⟨h, hblocked⟩ order
  obtain ⟨i, hi⟩ := hring.nonempty
  obtain ⟨member, c, key, next, hat, hrest, -⟩ := hkeeps.2 i hi
  rw [isOver, List.all_eq_false]
  refine ⟨member, List.mem_of_getElem? hat, ?_⟩
  rw [hrest]
  exact Bool.false_ne_true

/-! ## How far moves get -/

/-- If the request moves a script to another target, it finds the script there where it is to be taken away. -/
def Finds (m : Manager) (s : Session) : Request → Prop
  | .move e destination => destination ≠ e.target → Page.isInstalled (m.pageLines s e.target) e m.settings = .ok true
  | _ => True

/-- A page is read if its call is not refused. -/
theorem run_fetch_fst (hreads : ∀ n title, env.outage n (.read title) = none) (s : Session) (target : String) :
    (s.run env (m.fetch target)).1 = .ok (m.pageLines s target) := by
  have hread : ∀ site title, (s.read env site title).1 = .ok (s.text site title) := by
    intro site title
    unfold Session.read
    simp only [Session.call, hreads]
    split <;> rfl
  rw [Manager.fetch, Session.run_bind, Session.run_query]
  simp only [Session.answer, hread]
  rfl

/-- A routine that looks for a script goes on if the script is there. -/
theorem exists_leads_found (hreads : ∀ n title, env.outage n (.read title) = none) {e : Entry}
    (hfound : Page.isInstalled (m.pageLines s e.target) e m.settings = .ok true) {rest : List String → Bool → Routine Bool} :
    ∃ t, t.text = s.text ∧ Session.Leads env s (m.fetch e.target >>= fun page => m.isInstalled page e >>= rest page)
      t (rest (m.pageLines s e.target) true) := by
  obtain ⟨t, hfetch⟩ := Session.exists_run_ok (run_fetch_fst (m := m) hreads s e.target)
  obtain ⟨-, htext, -⟩ := Manager.fetch_ok hfetch
  have hinstalled : (t.run env (m.isInstalled (m.pageLines s e.target) e)).1 = .ok true := by
    rw [Manager.run_isInstalled_fst, hfound]
    rfl
  obtain ⟨u, hu⟩ := Session.exists_run_ok hinstalled
  have hsame := Session.text_run (Manager.quiet_isInstalled m (m.pageLines s e.target) e) env t
  rw [hu] at hsame
  exact ⟨u, hsame.trans htext, (Session.leads_bind (Manager.keyless_fetch m e.target) hfetch _).trans
    (Session.leads_bind (Manager.keyless_isInstalled m _ e) hu _)⟩

/-- A move that finds its script gets its first key and then asks for the second one. -/
theorem exists_asksTwice (hreads : ∀ n title, env.outage n (.read title) = none) {request : Request} (hfinds : Finds m s request)
    {first second : String} (hnesting : request.nesting? = some (first, second)) :
    ∃ key t key', Session.AsksTwice env s (request.routine m) key t key' ∧ Lock.keyOf key = first ∧ Lock.keyOf key' = second ∧
      t.text = s.text := by
  cases request with
  | move e destination =>
    rw [Request.nesting?] at hnesting
    split at hnesting
    · cases hnesting
    · next hne =>
      obtain ⟨rfl, rfl⟩ := Prod.mk.inj (Option.some.inj hnesting)
      obtain ⟨t, htext, hleads⟩ := exists_leads_found hreads (hfinds hne)
      refine ⟨Manager.sourceKey e, t, Manager.arrivalKey e destination, ?_, rfl, rfl, htext⟩
      rw [Request.routine, Manager.move, if_neg hne]
      exact (Session.asksTwice_holding hleads).bind _
  | _ => cases hnesting

/-- Some moves of a ring hold their first keys and ask for their second ones, and nobody else has started. -/
structure Halfway (m : Manager) (s : Session) (requests : List Request) (begun : Finset Nat) (g : Gathering Reply) : Prop where
  sound : g.Sound
  text : g.session.text = s.text
  blocked : ∀ i ∈ begun, IsBlocked requests g i
  waiting : ∀ i request, i ∉ begun → requests[i]? = some request → g.members[i]? = some { rest := request.routine m }
  tickets : ∀ t ∈ g.lock.tickets, ∃ i ∈ begun, (nestingAt? requests i).map Prod.fst = some t.key

/-- At the start no move of a ring has begun. -/
theorem halfway_empty (m : Manager) (s : Session) (requests : List Request) :
    Halfway m s requests ∅ (ofRequests m s requests) where
  sound := sound_ofRoutines s _
  text := rfl
  blocked i hi := absurd hi (Finset.notMem_empty i)
  waiting i request _ hrequest := by
    rw [ofRequests, ofRoutines, List.getElem?_map, List.getElem?_map, hrequest]
    rfl
  tickets t ht := nomatch ht

/-- One more of the moves of a ring that hold different keys starts and gets its first key. -/
theorem Halfway.exists_insert {begun : Finset Nat} (h : Halfway m s requests begun g)
    (hreads : ∀ n title, env.outage n (.read title) = none) (hfinds : ∀ request ∈ requests, Finds m s request)
    (hring : IsRing requests places) (hi : i ∈ places) (hnot : i ∉ begun)
    (hdistinct : ∀ j ∈ begun, (nestingAt? requests i).map Prod.fst ≠ (nestingAt? requests j).map Prod.fst) :
    ∃ g', Reaches env g g' ∧ Halfway m s requests (insert i begun) g' := by
  obtain ⟨-, -, first, second, -, hnesting, -⟩ := hring.awaits i hi
  obtain ⟨request, hrequest, hnesting'⟩ := Option.bind_eq_some_iff.mp hnesting
  have hfinds' : Finds m g.session request := by
    cases request with
    | move e destination =>
      intro hne
      rw [Manager.pageLines, Manager.pageText_of_text h.text]
      exact hfinds _ (List.mem_of_getElem? hrequest) hne
    | _ => trivial
  obtain ⟨key, t, key', ⟨next, next', hroutine, hleads⟩, rfl, rfl, htext⟩ := exists_asksTwice hreads hfinds' hnesting'
  have hat := h.waiting i request hnot hrequest
  have hlt := (List.getElem?_eq_some_iff.mp hat).1
  have hfresh : ∀ u ∈ g.lock.tickets, u.key ≠ Lock.keyOf key := by
    intro u hu hkey
    obtain ⟨j, hj, hfirst⟩ := h.tickets u hu
    refine hdistinct j hj ?_
    rw [hfirst, hkey, hnesting]
    rfl
  obtain ⟨lock, hlock, henter⟩ := h.sound.reaches_entered env hat hroutine rfl hfresh
  have hgoes := henter.trans (reaches_of_leads hleads rfl (List.getElem?_set_self hlt) rfl)
  refine ⟨_, hgoes, ?_, htext.trans h.text, fun j hj => ?_, fun j other hj hother => ?_, fun u hu => ?_⟩
  · obtain ⟨order, horder⟩ := hgoes
    exact horder ▸ h.sound.run env order
  · by_cases hij : i = j
    · subst hij
      refine ⟨_, _, key', next', List.getElem?_set_self (by rwa [List.length_set]), rfl, List.mem_cons_self, hnesting⟩
    · obtain ⟨member, c, key, next, hat, hrest, hc, hheld⟩ := h.blocked j (Finset.mem_of_mem_insert_of_ne hj (Ne.symm hij))
      refine ⟨member, c, key, next, ?_, hrest, hc, hheld⟩
      rw [List.getElem?_set_ne hij, List.getElem?_set_ne hij]
      exact hat
  · rw [Finset.mem_insert, not_or] at hj
    rw [List.getElem?_set_ne (Ne.symm hj.1), List.getElem?_set_ne (Ne.symm hj.1)]
    exact h.waiting j other hj.2 hother
  · rcases hlock u hu with hu | hkey
    · obtain ⟨j, hj, hfirst⟩ := h.tickets u hu
      exact ⟨j, Finset.mem_insert_of_mem hj, hfirst⟩
    · refine ⟨i, Finset.mem_insert_self i begun, ?_⟩
      rw [hnesting, hkey]
      rfl

/-- The moves of a ring that hold different keys can all get their first keys before any of them gets its second one. -/
theorem exists_blocked (hreads : ∀ n title, env.outage n (.read title) = none) (hfinds : ∀ request ∈ requests, Finds m s request)
    (hring : IsRing requests places)
    (hdistinct : ∀ i ∈ places, ∀ j ∈ places, (nestingAt? requests i).map Prod.fst = (nestingAt? requests j).map Prod.fst → i = j) :
    ∃ g, Reaches env (ofRequests m s requests) g ∧ Halfway m s requests places g := by
  have hall : ∀ begun ⊆ places, ∃ g, Reaches env (ofRequests m s requests) g ∧ Halfway m s requests begun g := by
    intro begun hsub
    induction begun using Finset.induction_on with
    | empty => exact ⟨_, .refl env _, halfway_empty m s requests⟩
    | insert i begun hnot ih =>
      obtain ⟨g, hreach, hhalf⟩ := ih fun j hj => hsub (Finset.mem_insert_of_mem hj)
      have hi := hsub (Finset.mem_insert_self i begun)
      obtain ⟨g', hreach', hhalf'⟩ := hhalf.exists_insert hreads hfinds hring hi hnot fun j hj hsame =>
        hnot (hdistinct i hi j (hsub (Finset.mem_insert_of_mem hj)) hsame ▸ hj)
      exact ⟨g', hreach.trans hreach', hhalf'⟩
  exact hall places (Finset.Subset.refl places)

/-! ## The rule -/

/-- Operations that are stuck contain a ring of moves. -/
theorem exists_ring_of_stuck {order : List Nat} (h : Stuck env ((ofRequests m s requests).run env order)) :
    ∃ places, IsRing requests places := by
  have hsound : (ofRequests m s requests).Sound := sound_ofRoutines s _
  exact (hsound.run env order).exists_ring ((conforms_ofRequests m s requests).run env order) h

/-- Requests whose moves ask for a later key than they hold, in some order of the keys, never get stuck. -/
theorem not_stuck_of_rank {rank : String → Nat}
    (hrank : ∀ i first second, nestingAt? requests i = some (first, second) → rank first < rank second) (order : List Nat) :
    ¬Stuck env ((ofRequests m s requests).run env order) := by
  intro hstuck
  obtain ⟨places, hring⟩ := exists_ring_of_stuck hstuck
  exact not_isRing_of_rank hrank hring

/-- Requests that are carried out side by side get stuck only if they hold a ring of moves, whatever calls are refused and in whatever
order they have their steps. Conversely, if pages can be read and every move finds its script, then every ring of moves gets stuck in
some order. -/
theorem stuck_only_in_rings (m : Manager) (env : Surroundings) (s : Session) (requests : List Request) :
    (∀ order, Stuck env ((ofRequests m s requests).run env order) → ∃ places, IsRing requests places) ∧
    ((∀ n title, env.outage n (.read title) = none) → (∀ request ∈ requests, Finds m s request) →
      ∀ places, IsRing requests places → ∃ order, Stuck env ((ofRequests m s requests).run env order)) := by
  refine ⟨fun _ hstuck => exists_ring_of_stuck hstuck, fun hreads hfinds places hring => ?_⟩
  obtain ⟨places, hring, hdistinct⟩ := hring.exists_distinct
  obtain ⟨g, ⟨order, rfl⟩, hhalf⟩ := exists_blocked hreads hfinds hring hdistinct
  obtain ⟨order', hstuck⟩ := hhalf.sound.exists_stuck env hring hhalf.blocked
  refine ⟨order ++ order', ?_⟩
  rwa [run, List.foldl_append]

/-- Two moves of a script that is on both of two targets, each to the other target, form a ring. -/
theorem stuck_only_in_rings_crossing :
    let m : Manager := { settings := { serverName := "a.org", userName := "U" } }
    let s : Session := { home := { wiki := { pages :=
      [("User:U/common.js", "importScript('X.js');"), ("User:U/vector.js", "importScript('X.js');")] } } }
    let script (target : String) := Entry.ofPage "X.js" (by decide) none target false
    let requests : List Request := [.move (script "common") "vector", .move (script "vector") "common"]
    (∀ request ∈ requests, Finds m s request) ∧ IsRing requests {0, 1} ∧
      ∃ order, Stuck {} ((ofRequests m s requests).run {} order) := by
  intro m s script requests
  have hfinds : ∀ request ∈ requests, Finds m s request := by
    intro request hrequest
    rcases List.mem_pair.mp hrequest with rfl | rfl
    · exact fun _ => (by decide +kernel)
    · exact fun _ => (by decide +kernel)
  have hring : IsRing requests {0, 1} := by
    refine ⟨⟨0, Finset.mem_insert_self 0 _⟩, fun i hi => ?_⟩
    rw [Finset.mem_insert, Finset.mem_singleton] at hi
    rcases hi with rfl | rfl
    · exact ⟨1, by decide, "common:x.js", "vector:x.js", "common:x.js", by decide +kernel, by decide +kernel⟩
    · exact ⟨0, by decide, "vector:x.js", "common:x.js", "vector:x.js", by decide +kernel, by decide +kernel⟩
  exact ⟨hfinds, hring, (stuck_only_in_rings m {} s requests).2 (fun _ _ => rfl) hfinds {0, 1} hring⟩

/-- In this order both moves take the key of their old target before they ask for that of the new one, and neither goes on. Each of
them would come to its end alone. -/
theorem crossing_moves_get_stuck :
    let m : Manager := { settings := { serverName := "a.org", userName := "U" } }
    let s : Session := { home := { wiki := { pages :=
      [("User:U/common.js", "importScript('X.js');"), ("User:U/vector.js", "importScript('X.js');")] } } }
    let script (target : String) := Entry.ofPage "X.js" (by decide) none target false
    let requests : List Request := [.move (script "common") "vector", .move (script "vector") "common"]
    (∀ request ∈ requests, request.nesting?.any fun keys => keys.1 ≠ keys.2) ∧
      (∀ request ∈ requests, (s.run {} (request.routine m)).1 = .ok (.changed true)) ∧
      Stuck {} ((ofRequests m s requests).run {} [0, 1, 0, 1, 0, 1, 0, 1, 0, 1]) := by
  decide +kernel

end Gathering

end UserScripts
