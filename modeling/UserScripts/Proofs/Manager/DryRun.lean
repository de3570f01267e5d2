import UserScripts.Proofs.Manager.Frame
import UserScripts.Proofs.Manager.Request

/-!
# Dry runs

A dry run works on drafts of the wikis. A draft takes a page over when it is first read, and it takes all edits in the place of the
wiki. As no routine edits a page that it has not read before, the draft always has the page by the time of the edit, so a dry run
comes to the same as a run on the wikis themselves, makes the same edits and shows the same pages, and the wikis stay as they
are. The proof carries a relation between the two runs from query to query. Main statements: `Orderly.mirrors`, a single run, and
`dry_run_mirrors_direct_run`, any sequence of requests.
-/

namespace UserScripts

/-! ## Services -/

namespace Service

/-- The service with an empty draft over its wiki. -/
def drafted (service : Service) : Service :=
  { service with draft := some {} }

/-- Whether a draft has a page, if there is a draft. -/
def Holds (service : Service) (title : String) : Prop :=
  ∀ draft ∈ service.draft, (draft.pages.get? title).isSome = true

/-- A service with a draft and one without that have come from one wiki by the same calls. They show the same pages, the draft has
the edits that the wiki of the other one has got since, and its own wiki is as it was. -/
structure Mirrors (base dry direct : Service) : Prop where
  drafts : dry.draft.isSome = true
  undrafted : direct.draft = none
  text : dry.text = direct.text
  edits : direct.edits = base.edits ++ dry.edits
  pages : dry.wiki.pages = base.wiki.pages
  saved : dry.wiki.edits = base.wiki.edits

variable {base dry direct service : Service} {title other : String} {edit : Edit}

/-- A service without a draft is mirrored by itself with an empty one. -/
theorem Mirrors.of_base (h : base.draft = none) : base.Mirrors base.drafted base where
  drafts := rfl
  undrafted := h
  text := by
    funext title
    simp [Service.text, drafted, h]
  edits := by simp [Service.edits, drafted]
  pages := rfl
  saved := rfl

/-- Reading a page fills the draft and keeps the services in step. -/
theorem Mirrors.read (h : base.Mirrors dry direct) (title : String) : base.Mirrors (dry.read title) (direct.read title) where
  drafts := (same_read dry title).drafts.trans h.drafts
  undrafted := by
    rw [← Option.not_isSome_iff_eq_none, (same_read direct title).drafts, h.undrafted]
    exact Bool.false_ne_true
  text := by rw [(same_read dry title).text, (same_read direct title).text, h.text]
  edits := by rw [(same_read dry title).edits, (same_read direct title).edits, h.edits]
  pages := (same_read dry title).pages.trans h.pages
  saved := (same_read dry title).saved.trans h.saved

/-- An edit of a page that the draft has makes the same text of it in the draft and on the wiki. -/
theorem Mirrors.save (h : base.Mirrors dry direct) (held : dry.Holds edit.title) : base.Mirrors (dry.save edit) (direct.save edit) := by
  obtain ⟨draft, hdraft⟩ := Option.isSome_iff_exists.mp h.drafts
  have hnone : direct.Holds edit.title := by simp [Holds, h.undrafted]
  refine ⟨?_, ?_, ?_, ?_, ?_, ?_⟩
  · simp [Service.save, hdraft]
  · simp [Service.save, h.undrafted]
  · funext page
    by_cases heq : page = edit.title
    · subst heq
      rw [Session.text_save_of_held held, Session.text_save_of_held hnone, h.text]
    · rw [Session.text_save_of_ne heq, Session.text_save_of_ne heq, h.text]
  · have hedits := h.edits
    simp only [Service.edits, hdraft, h.undrafted] at hedits
    simp [Service.edits, Service.save, hdraft, h.undrafted, Wiki.save, hedits]
  · simp [Service.save, hdraft, h.pages]
  · simp [Service.save, hdraft, h.saved]

/-- A draft gives no page up. -/
theorem Holds.read (h : service.Holds title) (other : String) : (service.read other).Holds title := by
  intro draft hmem
  unfold Service.read at hmem
  cases hdraft : service.draft with
  | none => simp [hdraft] at hmem
  | some old =>
    have hold := h old hdraft
    simp only [hdraft] at hmem
    split at hmem
    · exact h draft hmem
    · rw [Option.mem_some_iff] at hmem
      rw [← hmem, Wiki.overwrite, Keyed.get?_put]
      split
      · rfl
      · exact hold

/-- A page that a draft has stays in it after a save. -/
theorem Holds.save (h : service.Holds title) (edit : Edit) : (service.save edit).Holds title := by
  intro draft hmem
  unfold Service.save at hmem
  cases hdraft : service.draft with
  | none => simp [hdraft] at hmem
  | some old =>
    simp only [hdraft, Option.mem_some_iff] at hmem
    rw [← hmem, Wiki.save, Keyed.get?_put]
    split
    · rfl
    · exact h old hdraft

end Service

/-! ## Sessions -/

namespace Session

/-- The session with an empty draft over each wiki. -/
def drafted (s : Session) : Session :=
  { s with home := s.home.drafted, central := s.central.map Service.drafted }

/-- Two sessions, one with drafts and one without, that have come from one session by the same queries. -/
structure Mirrors (base dry direct : Session) : Prop where
  dryCentral : dry.central = none ↔ base.central = none
  directCentral : direct.central = none ↔ base.central = none
  service : ∀ site, (base.service site).Mirrors (dry.service site) (direct.service site)
  cache : dry.cache = direct.cache

variable {α : Type} {base dry direct s : Session} {site : Site} {title : String} {env : Surroundings}

/-- A session without drafts is mirrored by itself with empty ones. -/
theorem Mirrors.of_base (h : ∀ site, (s.service site).draft = none) : s.Mirrors s.drafted s where
  dryCentral := by simp [drafted]
  directCentral := Iff.rfl
  service site := by
    have hservice : s.drafted.service site = (s.service site).drafted := by
      cases site <;> cases hc : s.central <;> simp [drafted, Session.service, hc]
    rw [hservice]
    exact .of_base (h site)
  cache := rfl

/-- Sessions that mirror each other show the same pages. -/
theorem Mirrors.text (h : base.Mirrors dry direct) : dry.text = direct.text := by
  funext site title
  rw [Session.text, (h.service site).text, Session.text]

/-- A service that is replaced neither opens nor closes the central wiki. -/
theorem central_withService (s : Session) (site : Site) (service : Service) :
    (s.withService site service).central = none ↔ s.central = none := by
  cases site <;> cases hc : s.central <;> simp [withService, hc]

/-- Services that mirror each other can take the places of those for a site. -/
theorem Mirrors.withService {a b : Service} (h : base.Mirrors dry direct) (hab : (base.service site).Mirrors a b) :
    base.Mirrors (dry.withService site a) (direct.withService site b) where
  dryCentral := (central_withService dry site a).trans h.dryCentral
  directCentral := (central_withService direct site b).trans h.directCentral
  service other := by
    rw [service_withService_eq, service_withService_eq]
    by_cases hshared : other = site ∨ base.central = none
    · rw [if_pos (hshared.imp_right h.dryCentral.mpr), if_pos (hshared.imp_right h.directCentral.mpr), service_eq_of_shared hshared]
      exact hab
    · rw [if_neg (mt (Or.imp_right h.dryCentral.mp) hshared), if_neg (mt (Or.imp_right h.directCentral.mp) hshared)]
      exact h.service other
  cache := by rw [cache_withService, cache_withService, h.cache]

/-! ## Queries -/

/-- If no call is refused, a page is read. -/
theorem read_of_calm (calm : env.Calm) (s : Session) (site : Site) (title : String) :
    ∃ n, s.read env site title = (.ok (s.text site title), { s.withService site ((s.service site).read title) with calls := n }) := by
  unfold read
  simp only [call, calm s.calls (.read title)]
  split
  · exact ⟨_, rfl⟩
  · exact ⟨(s.withService site ((s.service site).read title)).calls, rfl⟩

/-- If no call is refused, an edit is saved. -/
theorem save_of_calm (calm : env.Calm) (s : Session) (site : Site) (edit : Edit) :
    ∃ n log, s.save env site edit = (.ok (), { s.withService site ((s.service site).save edit) with calls := n, log := log }) := by
  unfold save
  simp only [call, calm s.calls (.save edit.title)]
  split
  · exact ⟨_, _, rfl⟩
  · exact ⟨(s.withService site ((s.service site).save edit)).calls, _, rfl⟩

/-- A read in calm surroundings answers alike in both sessions and keeps them in step. -/
theorem Mirrors.read (h : base.Mirrors dry direct) (calm : env.Calm) (site : Site) (title : String) :
    (dry.read env site title).1 = (direct.read env site title).1 ∧
      base.Mirrors (dry.read env site title).2 (direct.read env site title).2 := by
  obtain ⟨n, hdry⟩ := read_of_calm calm dry site title
  obtain ⟨k, hdirect⟩ := read_of_calm calm direct site title
  have hseen := h.withService ((h.service site).read title)
  rw [hdry, hdirect, h.text]
  exact ⟨rfl, hseen.dryCentral, hseen.directCentral, hseen.service, hseen.cache⟩

/-- A save in calm surroundings of a page that the draft has is answered alike in both sessions and keeps them in step. -/
theorem Mirrors.save {edit : Edit} (h : base.Mirrors dry direct) (calm : env.Calm) (held : dry.Held site edit.title) :
    (dry.save env site edit).1 = (direct.save env site edit).1 ∧
      base.Mirrors (dry.save env site edit).2 (direct.save env site edit).2 := by
  obtain ⟨n, log, hdry⟩ := save_of_calm calm dry site edit
  obtain ⟨k, log', hdirect⟩ := save_of_calm calm direct site edit
  have hsaved := h.withService ((h.service site).save held)
  rw [hdry, hdirect]
  exact ⟨rfl, hsaved.dryCentral, hsaved.directCentral, hsaved.service, hsaved.cache⟩

/-- A query that leaves the wikis alone is answered in the same way in both sessions. -/
theorem Mirrors.answer {q : Query} (h : base.Mirrors dry direct) (hq : q.isQuiet = true) (env : Surroundings) :
    (dry.answer env q).1 = (direct.answer env q).1 ∧ base.Mirrors (dry.answer env q).2 (direct.answer env q).2 := by
  have hall : (dry.answer env q).1 = (direct.answer env q).1 ∧ (dry.answer env q).2.cache = (direct.answer env q).2.cache := by
    have hcache := h.cache
    cases q <;> first | exact absurd hq Bool.false_ne_true | simp [Session.answer, addNote, hcache]
  refine ⟨hall.1, ?_, ?_, fun site => ?_, hall.2⟩
  · exact (unchanged_answer hq env dry).central_eq_none.trans h.dryCentral
  · exact (unchanged_answer hq env direct).central_eq_none.trans h.directCentral
  · rw [service_answer hq, service_answer hq]
    exact h.service site

/-- A page that has once been read is held from then on. -/
theorem Held.withService {service : Service} {other : Site} (h : s.Held other title)
    (hservice : (s.service site).Holds title → service.Holds title) : (s.withService site service).Held other title := by
  have hholds : ((s.withService site service).service other).Holds title := by
    rw [service_withService_eq]
    split
    · next hshared =>
      refine hservice ?_
      rw [← service_eq_of_shared hshared]
      exact h
    · exact h
  exact hholds

/-! ## Runs -/

/-- The runs of a routine from two sessions come to the same and end in sessions that mirror each other. Each state on the way of
the first one mirrors some session without drafts. -/
def MirrorsRun (base : Session) (env : Surroundings) (dry direct : Session) (r : Routine α) : Prop :=
  (dry.run env r).1 = (direct.run env r).1 ∧ base.Mirrors (dry.run env r).2 (direct.run env r).2 ∧
    ∀ u ∈ dry.visited env r, ∃ v, base.Mirrors u v

/-- A routine that is over leaves sessions in step. -/
theorem Mirrors.run_done (h : base.Mirrors dry direct) (env : Surroundings) (outcome : Except Failure α) :
    base.MirrorsRun env dry direct (.done outcome) :=
  ⟨rfl, h, fun _ hu => ⟨direct, List.mem_singleton.mp hu ▸ h⟩⟩

/-- A query that is answered alike leads on with the same rest of the routine. -/
theorem MirrorsRun.ask {q : Query} {next : q.Answer → Routine α} (h : base.Mirrors dry direct)
    (hanswer : (dry.answer env q).1 = (direct.answer env q).1)
    (hrest : base.MirrorsRun env (dry.answer env q).2 (direct.answer env q).2 (next (dry.answer env q).1)) :
    base.MirrorsRun env dry direct (.ask q next) := by
  rw [MirrorsRun, Session.run_ask, Session.run_ask, Session.visited, ← hanswer]
  exact ⟨hrest.1, hrest.2.1, List.forall_mem_cons.mpr ⟨⟨direct, h⟩, hrest.2.2⟩⟩

end Session

namespace Routine

variable {α : Type} {m : Manager} {within read : List String} {env : Surroundings} {base dry direct : Session}

/-- An orderly routine makes of two sessions that mirror each other two such sessions, and it comes to the same in both. In every
state on its way the session with the drafts mirrors one without. -/
theorem Orderly.mirrors {post : List String → α → Prop} {r : Routine α} (h : Orderly m within post read r) (calm : env.Calm)
    (hs : base.Mirrors dry direct) (held : ∀ target ∈ read, dry.Held (m.siteOf target) (m.settings.targetTitle target)) :
    base.MirrorsRun env dry direct r := by
  induction h generalizing dry direct with
  | done _ => exact hs.run_done env _
  | failed => exact hs.run_done env _
  | @fetch read target next rest mem _ remembered _ _ ih =>
    obtain ⟨hanswer, hread⟩ := hs.read calm (m.siteOf target) (m.settings.targetTitle target)
    obtain ⟨n, hdry⟩ := Session.read_of_calm calm dry (m.siteOf target) (m.settings.targetTitle target)
    have hout := congrArg Prod.fst hdry
    obtain ⟨hkept, hafter⟩ :=
      hread.answer (q := .remember target (dry.text (m.siteOf target) (m.settings.targetTitle target))) rfl env
    have hheld : ∀ other ∈ target :: read,
        (dry.read env (m.siteOf target) (m.settings.targetTitle target)).2.Held (m.siteOf other) (m.settings.targetTitle other) := by
      refine List.forall_mem_cons.mpr ⟨Session.held_read hout, fun other ho => ?_⟩
      rw [hdry]
      exact (held other ho).withService fun hholds => hholds.read _
    refine .ask hs hanswer ?_
    simp only [Session.answer, hout, remembered]
    exact .ask hread hkept (ih _ hafter fun other ho => Manager.held_of_service (Session.service_answer rfl env _) (hheld other ho))
  | @submit read target edit next rest mem title forgotten _ ih =>
    obtain ⟨hanswer, hsave⟩ := hs.save calm (title ▸ held target mem : dry.Held (m.siteOf target) edit.title)
    obtain ⟨n, log, hdry⟩ := Session.save_of_calm calm dry (m.siteOf target) edit
    obtain ⟨hdropped, hafter⟩ := hsave.answer (q := .forget (some target)) rfl env
    have hheld : ∀ other ∈ read,
        (dry.save env (m.siteOf target) edit).2.Held (m.siteOf other) (m.settings.targetTitle other) := by
      intro other ho
      rw [hdry]
      exact (held other ho).withService fun hholds => hholds.save edit
    refine .ask hs hanswer ?_
    simp only [Session.answer, forgotten]
    exact .ask hsave hdropped (ih _ hafter fun other ho => Manager.held_of_service (Session.service_answer rfl env _) (hheld other ho))
  | @quiet read q next hq hr _ ih =>
    obtain ⟨hanswer, hafter⟩ := hs.answer hq env
    exact .ask hs hanswer (ih _ hafter fun other ho => Manager.held_of_service (Session.service_answer hq env dry) (held other ho))

end Routine

/-! ## Sequences of requests -/

namespace Manager

variable {m : Manager} {s base dry direct : Session}

/-- Requests that are served one after the other are answered alike in both sessions and keep them in step. -/
theorem mirrors_serve {steps : List (Surroundings × Request)} (calm : ∀ step ∈ steps, step.1.Calm) (hs : base.Mirrors dry direct) :
    (m.serve dry steps).1 = (m.serve direct steps).1 ∧ base.Mirrors (m.serve dry steps).2 (m.serve direct steps).2 := by
  induction steps generalizing dry direct with
  | nil => exact ⟨rfl, hs⟩
  | cons step steps ih =>
    obtain ⟨env, request⟩ := step
    obtain ⟨houtcome, hafter, -⟩ := (Request.orderly (List.Subset.refl (request.targets m))).mirrors
      (calm _ List.mem_cons_self) hs (List.forall_mem_nil _)
    obtain ⟨hrest, hend⟩ := ih (fun step' h => calm step' (List.mem_cons_of_mem _ h)) hafter
    rw [serve_cons, serve_cons, houtcome, hrest]
    exact ⟨rfl, hend⟩

/-- A dry run shows exactly what a direct run does. Any requests that are served while no call is refused, once on drafts of the
wikis and once on the wikis themselves, come to the same one by one, and the edits of each draft are those that its wiki gets in
the direct run. Both sessions show the same pages afterwards, and the pages and edits of the wikis under the drafts are what they
were, also in every state on the way of a further request. -/
theorem dry_run_mirrors_direct_run (m : Manager) (s : Session) (undrafted : ∀ site, (s.service site).draft = none)
    (steps : List (Surroundings × Request)) (calm : ∀ step ∈ steps, step.1.Calm) :
    let dry := (m.serve s.drafted steps).2
    let direct := (m.serve s steps).2
    (m.serve s.drafted steps).1 = (m.serve s steps).1 ∧
      (∀ site, (direct.service site).wiki.edits = (s.service site).wiki.edits ++ (dry.service site).edits) ∧
      dry.text = direct.text ∧
      (∀ site, (dry.service site).wiki.pages = (s.service site).wiki.pages ∧
        (dry.service site).wiki.edits = (s.service site).wiki.edits) ∧
      ∀ (env : Surroundings) (request : Request), env.Calm → ∀ u ∈ dry.visited env (request.routine m), ∀ site,
        (u.service site).wiki.pages = (s.service site).wiki.pages ∧ (u.service site).wiki.edits = (s.service site).wiki.edits := by
  obtain ⟨houtcomes, hend⟩ := mirrors_serve (m := m) calm (Session.Mirrors.of_base undrafted)
  refine ⟨houtcomes, fun site => ?_, hend.text, fun site => ⟨(hend.service site).pages, (hend.service site).saved⟩, ?_⟩
  · have hedits := (hend.service site).edits
    rw [Service.edits, Service.edits, (hend.service site).undrafted, undrafted site] at hedits
    exact hedits
  · intro env request hcalm u hu site
    have hway := (Request.orderly (List.Subset.refl (request.targets m))).mirrors hcalm hend (List.forall_mem_nil _)
    obtain ⟨v, hv⟩ := hway.2.2 u hu
    exact ⟨(hv.service site).pages, (hv.service site).saved⟩

/-- Two scripts are installed, one of them on a page of the central wiki. -/
theorem dry_run_mirrors_direct_run_install :
    ∃ (m : Manager) (s : Session) (steps : List (Surroundings × Request)),
      (∀ site, (s.service site).draft = none) ∧ (∀ step ∈ steps, step.1.Calm) ∧
      ((m.serve s.drafted steps).2.services.map fun service => (service.wiki.edits.length, service.edits.length)) =
        [(0, 1), (0, 1)] ∧
      (m.serve s.drafted steps).1 = (m.serve s steps).1 ∧ (m.serve s.drafted steps).2.text = (m.serve s steps).2.text := by
  let m : Manager := { settings := { serverName := "en.wikipedia.org", userName := "U" } }
  let s : Session := { home := { wiki := { pages := [("User:U/common.js", "foo();")] } }, central := some {} }
  let steps : List (Surroundings × Request) :=
    ["common", "global"].map fun target => ({}, .operate target (.install (Entry.ofPage "User:A/x.js" (by decide) none target false)))
  have undrafted : ∀ site, (s.service site).draft = none := by
    intro site
    cases site <;> rfl
  have calm : ∀ step ∈ steps, step.1.Calm := by
    intro step hstep n call
    obtain ⟨target, -, rfl⟩ := List.mem_map.mp hstep
    rfl
  have hedits : ((m.serve s.drafted steps).2.services.map fun service => (service.wiki.edits.length, service.edits.length)) =
      [(0, 1), (0, 1)] := by decide +kernel
  obtain ⟨houtcomes, -, htext, -⟩ := dry_run_mirrors_direct_run m s undrafted steps calm
  exact ⟨m, s, steps, undrafted, calm, hedits, houtcomes, htext⟩

end Manager

end UserScripts
