import UserScripts.Proofs.Manager.Frame
import UserScripts.Proofs.Manager.Request

/-!
# The cache is transparent

If the targets of all requests have pages of their own and nobody else edits these pages, the cache never holds anything but the
present text of a page, whichever calls to the wikis are refused. The reason is the order in which routines deal with pages: a
text is remembered as soon as it has been read, and dropped as soon as an edit has been submitted. So it makes no difference to
what an inquiry comes to whether it reads the pages afresh. Main statements: `Orderly.current`, what a single run preserves, and
`cache_is_transparent`, any sequence of requests.
-/

namespace UserScripts

open UserScripts.Text

/-- Whether a query takes something out of the cache. -/
def Query.drops : Query → Bool
  | .forget _ => true
  | _ => false

namespace Session

variable {α : Type}

/-- The states in which a run can be looked at. The text of a target is dropped together with the answer to the edit before it, so
there is nothing to be seen between the two. -/
def rests (env : Surroundings) (s : Session) : Routine α → List Session
  | .done _ => [s]
  | .ask q next => (if q.drops then [] else [s]) ++ rests env (s.answer env q).2 (next (s.answer env q).1)

/-- A read leaves the cache as it is. -/
theorem cache_read (env : Surroundings) (s : Session) (site : Site) (title : String) : (s.read env site title).2.cache = s.cache := by
  have hseen := cache_withService s site ((s.service site).read title)
  unfold read
  simp only [call]
  split
  · cases env.outage s.calls (.read title) with
    | none => exact hseen
    | some message => rfl
  · exact hseen

/-- A save leaves the cache as it is. -/
theorem cache_save (env : Surroundings) (s : Session) (site : Site) (edit : Edit) : (s.save env site edit).2.cache = s.cache := by
  have hsaved := cache_withService s site ((s.service site).save edit)
  unfold save
  simp only [call]
  split
  · cases env.outage s.calls (.save edit.title) with
    | none => exact hsaved
    | some message => rfl
  · exact hsaved

/-- A query that does not remember anything puts nothing into the cache. -/
theorem get?_cache_answer {env : Surroundings} {s : Session} {q : Query} {target text : String} (hq : q.remembers = false)
    (h : Keyed.get? (s.answer env q).2.cache target = some text) : Keyed.get? s.cache target = some text := by
  cases q with
  | read site title =>
    rw [answer, cache_read] at h
    exact h
  | save site edit =>
    rw [answer, cache_save] at h
    exact h
  | remember target text => cases hq
  | forget dropped =>
    cases dropped with
    | none => cases h
    | some dropped =>
      have h : Keyed.get? (s.cache.forget (some dropped)) target = some text := h
      rw [Cache.get?_forget_some] at h
      split at h
      · cases h
      · exact h
  | _ => exact h

end Session

namespace Manager

open Routine

variable {α β : Type} {m : Manager} {within read : List String} {env : Surroundings} {s t : Session} {target text : String}

/-! ## What the cache holds -/

/-- A session whose cache holds nothing but present texts of the pages of some targets, no two of which share a page. -/
structure Current (m : Manager) (within : List String) (s : Session) : Prop where
  distinct : ∀ target ∈ within, ∀ other ∈ within, target ≠ other → m.DifferentPages s target other
  known : ∀ target text, Keyed.get? s.cache target = some text → target ∈ within
  text : ∀ target text, Keyed.get? s.cache target = some text → text = m.pageText s target

/-- A change that neither touches a page nor puts anything into the cache. -/
theorem Current.of_unchanged (h : m.Current within s) (hu : s.Unchanged t)
    (hcache : ∀ target text, Keyed.get? t.cache target = some text → Keyed.get? s.cache target = some text) :
    m.Current within t where
  distinct target ht other ho hne := (h.distinct target ht other ho hne).of_central hu.central_eq_none
  known target text hget := h.known target text (hcache target text hget)
  text target text hget := by
    rw [pageText_of_text hu.text]
    exact h.text target text (hcache target text hget)

/-- A query that changes no page and keeps nothing in the cache leaves it current. -/
theorem Current.answer {q : Query} (h : m.Current within s) (hq : q.isQuiet = true) (hr : q.remembers = false) (env : Surroundings) :
    m.Current within (s.answer env q).2 :=
  h.of_unchanged (Session.unchanged_answer hq env s) fun _ _ => Session.get?_cache_answer hr

/-- The text that is remembered is the one that has been read. -/
theorem Current.remember (h : m.Current within s) (mem : target ∈ within) (htext : text = m.pageText s target) (env : Surroundings) :
    m.Current within (s.answer env (.remember target text)).2 := by
  have hcache : ∀ other text', Keyed.get? (s.answer env (.remember target text)).2.cache other = some text' →
      (other = target ∧ text' = text) ∨ Keyed.get? s.cache other = some text' := by
    intro other text' hget
    have hget : Keyed.get? (Keyed.put target text s.cache) other = some text' := hget
    rw [Keyed.get?_put] at hget
    split at hget
    · next heq => exact Or.inl ⟨heq.symm, (Option.some.inj hget).symm⟩
    · exact Or.inr hget
  have hu : s.Unchanged (s.answer env (.remember target text)).2 := Session.unchanged_answer rfl env s
  refine ⟨fun target ht other ho hne => (h.distinct target ht other ho hne).of_central hu.central_eq_none, ?_, ?_⟩
  · intro other text' hget
    rcases hcache other text' hget with ⟨rfl, -⟩ | hget
    · exact mem
    · exact h.known other text' hget
  · intro other text' hget
    rw [pageText_of_text hu.text]
    rcases hcache other text' hget with ⟨rfl, rfl⟩ | hget
    · exact htext
    · exact h.text other text' hget

/-- An edit changes no page but that of its target, and the target is dropped. -/
theorem Current.submit {edit : Edit} (h : m.Current within s) (mem : target ∈ within) (title : edit.title = m.settings.targetTitle target) :
    m.Current within ((s.save env (m.siteOf target) edit).2.answer env (.forget (some target))).2 := by
  have haside := Session.aside_save env s (m.siteOf target) edit
  rw [title] at haside
  have hdropped : (s.save env (m.siteOf target) edit).2.Unchanged
      ((s.save env (m.siteOf target) edit).2.answer env (.forget (some target))).2 := Session.unchanged_answer rfl env _
  have hcache : ∀ other text', Keyed.get? ((s.save env (m.siteOf target) edit).2.answer env (.forget (some target))).2.cache other =
      some text' → target ≠ other ∧ Keyed.get? s.cache other = some text' := by
    intro other text' hget
    have hget : Keyed.get? ((s.save env (m.siteOf target) edit).2.cache.forget (some target)) other = some text' := hget
    rw [Session.cache_save, Cache.get?_forget_some] at hget
    split at hget
    · cases hget
    · next hne => exact ⟨hne, hget⟩
  refine ⟨fun target ht other ho hne => ?_, fun other text' hget => h.known other text' (hcache other text' hget).2, ?_⟩
  · exact ((h.distinct target ht other ho hne).of_central haside.central).of_central hdropped.central_eq_none
  · intro other text' hget
    obtain ⟨hne, hget⟩ := hcache other text' hget
    have hdiff := h.distinct target mem other (h.known other text' hget) hne
    rw [pageText_of_text hdropped.text, pageText_of_aside hdiff haside]
    exact h.text other text' hget

/-! ## What runs keep -/

/-- The cache is current in every state in which a run can be looked at, and in the end. -/
def StaysCurrent (m : Manager) (within : List String) (env : Surroundings) (s : Session) (r : Routine α) : Prop :=
  (∀ u ∈ s.rests env r, m.Current within u) ∧ m.Current within (s.run env r).2

/-- A run that is over has nothing but its last state to be looked at. -/
theorem Current.stays_done (h : m.Current within s) (env : Surroundings) (outcome : Except Failure α) :
    m.StaysCurrent within env s (.done outcome) :=
  ⟨fun _ hu => List.mem_singleton.mp hu ▸ h, h⟩

/-- A query that drops a text may find the cache stale, as a run cannot be looked at there. -/
theorem StaysCurrent.ask {q : Query} {next : q.Answer → Routine α} (hs : q.drops = false → m.Current within s)
    (h : m.StaysCurrent within env (s.answer env q).2 (next (s.answer env q).1)) : m.StaysCurrent within env s (.ask q next) := by
  refine ⟨fun u hu => ?_, h.2⟩
  rw [Session.rests] at hu
  rcases List.mem_append.mp hu with hu | hu
  · split at hu
    · cases hu
    · next hkept => exact List.mem_singleton.mp hu ▸ hs (Bool.eq_false_iff.mpr hkept)
  · exact h.1 u hu

end Manager

namespace Routine

variable {α : Type} {m : Manager} {within read : List String} {s : Session}

/-- An orderly routine never lets the cache go stale: not in any state in which it can be looked at, and not in the end. -/
theorem Orderly.current {post : List String → α → Prop} {r : Routine α} (h : Orderly m within post read r)
    (hread : ∀ target ∈ read, target ∈ within) (hs : m.Current within s) (env : Surroundings) : m.StaysCurrent within env s r := by
  induction h generalizing s with
  | done _ => exact hs.stays_done env _
  | failed => exact hs.stays_done env _
  | @fetch read target next rest mem _ remembered _ ihRefused ihFetched =>
    have hafter : m.Current within (s.read env (m.siteOf target) (m.settings.targetTitle target)).2 := by
      refine hs.of_unchanged (Session.unchanged_read env s _ _) fun other text hget => ?_
      rwa [Session.cache_read] at hget
    refine .ask (fun _ => hs) ?_
    show m.StaysCurrent within env (s.read env (m.siteOf target) (m.settings.targetTitle target)).2
      (next (s.read env (m.siteOf target) (m.settings.targetTitle target)).1)
    cases hout : (s.read env (m.siteOf target) (m.settings.targetTitle target)).1 with
    | error failure => exact ihRefused failure hread hafter
    | ok text =>
      have htext : text = m.pageText (s.read env (m.siteOf target) (m.settings.targetTitle target)).2 target := by
        rw [Manager.pageText_of_text (Session.unchanged_read env s _ _).text]
        exact Session.read_ok hout
      have hread' : ∀ other ∈ target :: read, other ∈ within := List.forall_mem_cons.mpr ⟨mem, hread⟩
      rw [remembered]
      exact .ask (fun _ => hafter) (ihFetched text hread' (hafter.remember mem htext env))
  | @submit read target edit next rest mem title forgotten _ ih =>
    have hafter : m.Current within ((s.save env (m.siteOf target) edit).2.answer env (.forget (some target))).2 :=
      hs.submit (hread target mem) title
    refine .ask (fun _ => hs) ?_
    rw [forgotten]
    exact .ask (fun hkept => by cases hkept) (ih (s.save env (m.siteOf target) edit).1 hread hafter)
  | @quiet read q next hq hr _ ih => exact .ask (fun _ => hs) (ih (s.answer env q).1 hread (hs.answer hq hr env))

end Routine

/-! ## What an inquiry comes to -/

/-- An outcome that only a refused call explains. -/
def Surroundings.Refuses {α : Type} (env : Surroundings) (outcome : Except Failure α) : Prop :=
  ∃ n call message, env.outage n call = some message ∧ outcome = .error (.transport message)

namespace Manager

open Routine

variable {α β : Type} {m : Manager} {within : List String} {env : Surroundings} {s t : Session} {target : String}

/-- A run that comes to a value, unless a call is refused, and that changes no page and leaves the cache current. -/
structure Finds (m : Manager) (within : List String) (env : Surroundings) (s : Session) (r : Routine α) (a : α) : Prop where
  outcome : env.Refuses (s.run env r).1 ∨ (s.run env r).1 = .ok a
  unchanged : s.Unchanged (s.run env r).2
  current : m.Current within (s.run env r).2

/-- A value at hand is found. -/
theorem Finds.pure (hs : m.Current within s) (a : α) : m.Finds within env s (Pure.pure a : Routine α) a :=
  ⟨Or.inr rfl, .refl s, hs⟩

/-- Two parts that find their values, the second from wherever the first one ends, find that of the second. -/
theorem Finds.bind {r : Routine α} {f : α → Routine β} {a : α} {b : β} (hr : m.Finds within env s r a)
    (hf : ∀ t, s.Unchanged t → m.Current within t → m.Finds within env t (f a) b) : m.Finds within env s (r >>= f) b := by
  rcases hr.outcome with ⟨n, call, message, refused, hout⟩ | hout
  · have hrun := Session.run_bind_of_error hout f
    exact ⟨hrun ▸ Or.inl ⟨n, call, message, refused, rfl⟩, hrun ▸ hr.unchanged, hrun ▸ hr.current⟩
  · have hrun := Session.run_bind_of_ok hout f
    have hrest := hf _ hr.unchanged hr.current
    exact ⟨hrun ▸ hrest.outcome, hrun ▸ hr.unchanged.trans hrest.unchanged, hrun ▸ hrest.current⟩

/-- Writing notes comes to its value and leaves pages and cache as they are. -/
theorem Finds.notes (hs : m.Current within s) (ns : List Note) : m.Finds within env s (Routine.notes ns) () where
  outcome := Or.inr (run_notes_fst env s ns)
  unchanged := Session.unchanged_run (Quiet.notes ns) env s
  current := by
    have horderly : Orderly m within (fun _ _ => True) [] (Routine.notes ns >>= fun _ => Pure.pure ()) :=
      .after_notes (.done trivial)
    rw [bind_pure] at horderly
    exact (horderly.current (List.forall_mem_nil _) hs env).2

/-- The answer to a question about the cache. -/
theorem Finds.recall {f : Option String → Routine α} {a : α} (h : m.Finds within env s (f (Keyed.get? s.cache target)) a) :
    m.Finds within env s (Routine.query (.recall target) >>= f) a :=
  ⟨h.outcome, h.unchanged, h.current⟩

/-- After a page has been fetched the cache holds its text. -/
theorem Finds.fetch {f : List String → Routine α} {a : α} (hs : m.Current within s) (mem : target ∈ within)
    (hf : ∀ t, s.Unchanged t → m.Current within t → Keyed.get? t.cache target = some (m.pageText s target) →
      m.Finds within env t (f (m.pageLines s target)) a) : m.Finds within env s (m.fetch target >>= f) a := by
  have hunchanged := unchanged_fetch m target env s
  have hcurrent : m.Current within (s.run env (m.fetch target)).2 :=
    ((orderly_fetch mem).current (List.forall_mem_nil _) hs env).2
  have hcases : env.Refuses (s.run env (m.fetch target)).1 ∨ (s.run env (m.fetch target)).1 = .ok (m.pageLines s target) ∧
      Keyed.get? (s.run env (m.fetch target)).2.cache target = some (m.pageText s target) := by
    rw [Manager.fetch, Session.run_bind, Session.run_query]
    simp only [Session.answer]
    rcases read_cases env s (m.siteOf target) (m.settings.targetTitle target) with ⟨n, call, message, refused, hread⟩ | hread
    · rw [hread]
      exact Or.inl ⟨n, call, message, refused, rfl⟩
    · rw [hread]
      exact Or.inr ⟨rfl, Keyed.get?_put_self _ _ _⟩
  rcases hcases with ⟨n, call, message, refused, hout⟩ | ⟨hout, hget⟩
  · have hrun := Session.run_bind_of_error hout f
    exact ⟨hrun ▸ Or.inl ⟨n, call, message, refused, rfl⟩, hrun ▸ hunchanged, hrun ▸ hcurrent⟩
  · have hrun := Session.run_bind_of_ok hout f
    have hrest := hf _ hunchanged hcurrent hget
    exact ⟨hrun ▸ hrest.outcome, hrun ▸ hunchanged.trans hrest.unchanged, hrun ▸ hrest.current⟩

/-- The values of several runs that are carried out one after the other. -/
theorem Finds.all {f : β → Routine α} {value : β → α} {bs : List β} (hs : m.Current within s)
    (hf : ∀ b ∈ bs, ∀ t, s.Unchanged t → m.Current within t → m.Finds within env t (f b) (value b)) :
    m.Finds within env s (Routine.all (bs.map f)) (bs.map value) := by
  have hattempts : ∃ outcomes, (s.run env (Routine.attemptAll (bs.map f))).1 = .ok outcomes ∧
      (env.Refuses (outcomes.mapM id) ∨ outcomes.mapM id = .ok (bs.map value)) ∧
      s.Unchanged (s.run env (Routine.attemptAll (bs.map f))).2 ∧ m.Current within (s.run env (Routine.attemptAll (bs.map f))).2 := by
    induction bs generalizing s with
    | nil => exact ⟨[], rfl, Or.inr rfl, .refl s, hs⟩
    | cons b bs ih =>
      have hfirst := hf b List.mem_cons_self s (.refl s) hs
      obtain ⟨outcomes, hout, hmap, hunchanged, hcurrent⟩ := ih hfirst.current fun b' hb' t ht =>
        hf b' (List.mem_cons_of_mem _ hb') t (hfirst.unchanged.trans ht)
      have hattempt := Session.run_attempt env s (f b)
      have hrun : s.run env (Routine.attemptAll ((b :: bs).map f)) =
          (.ok ((s.run env (f b)).1 :: outcomes),
            (Session.run env (s.run env (f b)).2 (Routine.attemptAll (bs.map f))).2) := by
        rw [List.map_cons, Routine.attemptAll, Session.run_bind_of_ok (congrArg Prod.fst hattempt), hattempt,
          Session.run_bind_of_ok hout]
        rfl
      refine ⟨_, congrArg Prod.fst hrun, ?_, hrun ▸ hfirst.unchanged.trans hunchanged, hrun ▸ hcurrent⟩
      rw [List.mapM_cons]
      rcases hfirst.outcome with ⟨n, call, message, refused, hfail⟩ | hok
      · rw [hfail]
        exact Or.inl ⟨n, call, message, refused, rfl⟩
      · rw [hok]
        rcases hmap with ⟨n, call, message, refused, hfail⟩ | hmap
        · refine Or.inl ⟨n, call, message, refused, ?_⟩
          simp only [id, hfail]
          rfl
        · refine Or.inr ?_
          simp only [id, hmap]
          rfl
  obtain ⟨outcomes, hout, hmap, hunchanged, hcurrent⟩ := hattempts
  have hrun := Session.run_bind_of_ok hout fun outcomes => Routine.ofExcept (outcomes.mapM id)
  exact ⟨hrun ▸ hmap, hrun ▸ hunchanged, hrun ▸ hcurrent⟩

end Manager

end UserScripts
