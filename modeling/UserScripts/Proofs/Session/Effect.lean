import UserScripts.Proofs.Session.Run

/-!
# What a run leaves behind

The pages and edits that a run has changed, and the edits that it has submitted, whether they could be saved or not. Reading and
everything that leaves the wikis alone change nothing, an edit that fails changes nothing, and an edit that is saved through a
service changes its own page and no other one. Main statements: `unchanged_run`, `unchanged_read`, `unchanged_save`
and `editedOn_save`.
-/

namespace UserScripts

/-! ## Services -/

namespace Service

/-- Two states of a service that have the same pages and the same edits, whatever has been read between them. -/
structure Same (a b : Service) : Prop where
  pages : b.wiki.pages = a.wiki.pages
  saved : b.wiki.edits = a.wiki.edits
  edits : b.edits = a.edits
  text : b.text = a.text
  drafts : b.draft.isSome = a.draft.isSome

/-- Two states of a service between which one edit has been made: it is recorded once, it has really changed its page, and it has
changed no other page. A draft takes the edit in the place of the wiki. -/
structure Edited (edit : Edit) (a b : Service) : Prop where
  edits : b.edits = a.edits ++ [edit]
  text : b.text edit.title = edit.change.apply (a.text edit.title)
  changed : b.text edit.title ≠ a.text edit.title
  others : ∀ title, title ≠ edit.title → b.text title = a.text title
  pages : ∀ title, title ≠ edit.title → b.wiki.pages.get? title = a.wiki.pages.get? title
  drafted : a.draft.isSome = true → b.wiki.pages = a.wiki.pages ∧ b.wiki.edits = a.wiki.edits
  drafts : b.draft.isSome = a.draft.isSome

theorem Same.refl (a : Service) : a.Same a :=
  ⟨rfl, rfl, rfl, rfl, rfl⟩

/-- A service that agrees with a second one agrees with every service that the second one agrees with. -/
theorem Same.trans {a b c : Service} (hab : a.Same b) (hbc : b.Same c) : a.Same c where
  pages := hbc.pages.trans hab.pages
  saved := hbc.saved.trans hab.saved
  edits := hbc.edits.trans hab.edits
  text := hbc.text.trans hab.text
  drafts := hbc.drafts.trans hab.drafts

/-- An edit is the same one if only reading has come before it. -/
theorem Same.edited {a b c : Service} {edit : Edit} (hab : a.Same b) (hbc : b.Edited edit c) : a.Edited edit c where
  edits := hab.edits ▸ hbc.edits
  text := hab.text ▸ hbc.text
  changed := hab.text ▸ hbc.changed
  others := hab.text ▸ hbc.others
  pages := hab.pages ▸ hbc.pages
  drafted := by
    rw [← hab.drafts, ← hab.pages, ← hab.saved]
    exact hbc.drafted
  drafts := hbc.drafts.trans hab.drafts

/-- An edit is the same one if only reading comes after it. -/
theorem Edited.same {a b c : Service} {edit : Edit} (hab : a.Edited edit b) (hbc : b.Same c) : a.Edited edit c where
  edits := hbc.edits.trans hab.edits
  text := by rw [hbc.text, hab.text]
  changed := by
    rw [hbc.text]
    exact hab.changed
  others title hne := by rw [hbc.text, hab.others title hne]
  pages title hne := by rw [hbc.pages, hab.pages title hne]
  drafted := by
    rw [hbc.pages, hbc.saved]
    exact hab.drafted
  drafts := hbc.drafts.trans hab.drafts

/-- Reading a page changes nothing. -/
theorem same_read (service : Service) (title : String) : service.Same (service.read title) := by
  have htext : (service.read title).text = service.text := funext (text_read service title)
  cases hd : service.draft with
  | none => refine ⟨?_, ?_, ?_, htext, ?_⟩ <;> simp [Service.read, Service.edits, hd, Wiki.read]
  | some draft =>
    cases hp : draft.pages.get? title with
    | some held => refine ⟨?_, ?_, ?_, htext, ?_⟩ <;> simp [Service.read, hd, hp]
    | none => refine ⟨?_, ?_, ?_, htext, ?_⟩ <;> simp [Service.read, Service.edits, hd, hp, Wiki.read, Wiki.overwrite]

/-- An edit that changes a page that is held changes that page only. -/
theorem edited_save {service : Service} {edit : Edit}
    (held : ∀ draft ∈ service.draft, (draft.pages.get? edit.title).isSome = true)
    (hdiff : edit.change.apply (service.text edit.title) ≠ service.text edit.title) : service.Edited edit (service.save edit) := by
  have htext := Session.text_save_of_held held
  cases hd : service.draft with
  | none =>
    refine ⟨?_, htext, htext ▸ hdiff, ?_, ?_, ?_, ?_⟩
    · simp [Service.edits, Service.save, hd, Wiki.save]
    · intro title hne
      simp [Service.text, Service.save, hd, Wiki.text_save, Ne.symm hne]
    · intro title hne
      simp [Service.save, hd, Wiki.save, Keyed.get?_put, Ne.symm hne]
    · simp [hd]
    · simp [Service.save, hd]
  | some draft =>
    refine ⟨?_, htext, htext ▸ hdiff, ?_, ?_, ?_, ?_⟩
    · simp [Service.edits, Service.save, hd, Wiki.save]
    · intro title hne
      simp [Service.text, Service.save, hd, Wiki.save, Keyed.get?_put, Ne.symm hne]
    · simp [Service.save, hd]
    · simp [Service.save, hd]
    · simp [Service.save, hd]

end Service

/-! ## Sessions -/

namespace Session

variable {α β : Type}

/-- Two states of a session between which no page has changed and no edit has been recorded. -/
structure Unchanged (s t : Session) : Prop where
  central : t.central.isSome = s.central.isSome
  service : ∀ site, (s.service site).Same (t.service site)

/-- Two states of a session between which one edit has been made on a site. Without a central service both sites are served by the
home wiki. -/
structure EditedOn (site : Site) (edit : Edit) (s t : Session) : Prop where
  central : t.central.isSome = s.central.isSome
  service : ∀ other, other = site ∨ s.central = none → (s.service other).Edited edit (t.service other)
  others : ∀ other, other ≠ site → s.central ≠ none → (s.service other).Same (t.service other)

theorem Unchanged.refl (s : Session) : s.Unchanged s :=
  ⟨rfl, fun _ => .refl _⟩

theorem Unchanged.trans {s t u : Session} (hst : s.Unchanged t) (htu : t.Unchanged u) : s.Unchanged u :=
  ⟨htu.central.trans hst.central, fun site => (hst.service site).trans (htu.service site)⟩

/-- Whether a session has a central service does not change. -/
theorem Unchanged.central_eq_none {s t : Session} (h : s.Unchanged t) : t.central = none ↔ s.central = none := by
  rw [← Option.isNone_iff_eq_none, ← Option.isNone_iff_eq_none, ← Option.not_isSome, ← Option.not_isSome, h.central]

/-- An edit is the same one if nothing has been changed before it. -/
theorem Unchanged.editedOn {s t u : Session} {site : Site} {edit : Edit} (hst : s.Unchanged t) (htu : EditedOn site edit t u) :
    EditedOn site edit s u where
  central := htu.central.trans hst.central
  service other h := (hst.service other).edited (htu.service other (h.imp_right hst.central_eq_none.mpr))
  others other hne hcentral := (hst.service other).trans (htu.others other hne (mt hst.central_eq_none.mp hcentral))

/-- An edit is the same one if nothing is changed after it. -/
theorem EditedOn.unchanged {s t u : Session} {site : Site} {edit : Edit} (hst : EditedOn site edit s t) (htu : t.Unchanged u) :
    EditedOn site edit s u where
  central := htu.central.trans hst.central
  service other h := (hst.service other h).same (htu.service other)
  others other hne hcentral := (hst.others other hne hcentral).trans (htu.service other)

/-- Where nothing has changed all pages show the same texts. -/
theorem Unchanged.text {s t : Session} (h : s.Unchanged t) : t.text = s.text := by
  funext site title
  rw [Session.text, (h.service site).text, Session.text]

/-- A service that is replaced neither opens nor closes the central wiki. -/
theorem isSome_central_withService (s : Session) (site : Site) (service : Service) :
    (s.withService site service).central.isSome = s.central.isSome := by
  cases site <;> cases hc : s.central <;> simp [withService, hc]

/-- A service that is replaced leaves the cache as it is. -/
theorem cache_withService (s : Session) (site : Site) (service : Service) : (s.withService site service).cache = s.cache := by
  cases site <;> cases hc : s.central <;> simp [withService, hc]

/-- The services of a session after the one for a site has been replaced. -/
theorem service_withService_eq (s : Session) (site : Site) (service : Service) (other : Site) :
    (s.withService site service).service other = if other = site ∨ s.central = none then service else s.service other := by
  cases site <;> cases other <;> cases hc : s.central <;> simp [withService, Session.service, hc]

/-- Without a central service there is only one service. -/
theorem service_eq_of_shared {s : Session} {site other : Site} (h : other = site ∨ s.central = none) :
    s.service other = s.service site := by
  rcases h with rfl | h
  · rfl
  · cases site <;> cases other <;> simp [Session.service, h]

/-- Replacing a service by one with the same pages and edits changes nothing. -/
theorem unchanged_withService {s : Session} {site : Site} {service : Service} (h : (s.service site).Same service) :
    s.Unchanged (s.withService site service) := by
  refine ⟨isSome_central_withService s site service, fun other => ?_⟩
  rw [service_withService_eq]
  split
  · next hshared =>
    rw [service_eq_of_shared hshared]
    exact h
  · exact .refl _

/-- Replacing a service by one with one more edit is that edit, made on its site. -/
theorem editedOn_withService {s : Session} {site : Site} {service : Service} {edit : Edit}
    (h : (s.service site).Edited edit service) :
    EditedOn site edit s (s.withService site service) := by
  refine ⟨isSome_central_withService s site service, fun other hshared => ?_, fun other hne hcentral => ?_⟩
  · rw [service_withService_eq, if_pos hshared, service_eq_of_shared hshared]
    exact h
  · rw [service_withService_eq, if_neg (not_or.mpr ⟨hne, hcentral⟩)]
    exact .refl _

/-! ## Queries -/

/-- A query that leaves the wikis alone changes nothing. -/
theorem unchanged_answer {q : Query} (hq : q.isQuiet = true) (env : Surroundings) (s : Session) :
    s.Unchanged (s.answer env q).2 := by
  refine ⟨?_, fun site => ?_⟩
  · cases q <;> first | rfl | exact absurd hq Bool.false_ne_true
  · rw [service_answer hq]
    exact .refl _

/-- A quiet routine changes nothing. -/
theorem unchanged_run {r : Routine α} (h : r.Quiet) (env : Surroundings) (s : Session) : s.Unchanged (s.run env r).2 := by
  induction h generalizing s with
  | done outcome => exact .refl s
  | ask hq _ ih => exact (unchanged_answer hq env s).trans (ih _ _)

/-- Reading a page changes nothing, whether it succeeds or not. -/
theorem unchanged_read (env : Surroundings) (s : Session) (site : Site) (title : String) :
    s.Unchanged (s.read env site title).2 := by
  have hseen := unchanged_withService (Service.same_read (s.service site) title)
  unfold read
  simp only [call]
  split
  · cases env.outage s.calls (.read title) with
    | none => exact ⟨hseen.central, hseen.service⟩
    | some message => exact ⟨rfl, fun _ => .refl _⟩
  · exact hseen

/-- An edit that cannot be saved changes nothing. -/
theorem unchanged_save {env : Surroundings} {s : Session} {site : Site} {edit : Edit} {e : Failure}
    (h : (s.save env site edit).1 = .error e) : s.Unchanged (s.save env site edit).2 := by
  unfold save at h ⊢
  simp only [call] at h ⊢
  split at h
  · next hd =>
    rw [if_pos hd]
    cases ho : env.outage s.calls (.save edit.title) with
    | none => rw [ho] at h; cases h
    | some message => exact ⟨rfl, fun _ => .refl _⟩
  · cases h

/-- An edit that is saved, of a page that is held and that it changes, is made on its site. -/
theorem editedOn_save {env : Surroundings} {s : Session} {site : Site} {edit : Edit} (held : s.Held site edit.title)
    (hdiff : edit.change.apply (s.text site edit.title) ≠ s.text site edit.title) (h : (s.save env site edit).1 = .ok ()) :
    EditedOn site edit s (s.save env site edit).2 := by
  have hsaved := editedOn_withService (Service.edited_save held hdiff)
  unfold save at h ⊢
  simp only [call] at h ⊢
  split at h
  · next hd =>
    rw [if_pos hd]
    cases ho : env.outage s.calls (.save edit.title) with
    | none => exact ⟨hsaved.central, hsaved.service, hsaved.others⟩
    | some message => rw [ho] at h; cases h
  · next hd =>
    rw [if_neg hd]
    exact ⟨hsaved.central, hsaved.service, hsaved.others⟩

end Session

/-! ## Submissions -/

/-- The edit that a query submits, with its site. -/
def Query.submission? : Query → Option (Site × Edit)
  | .save site edit => some (site, edit)
  | _ => none

namespace Session

variable {α β : Type}

/-- The edits that a routine submits when it is carried out, whether they can be saved or not. -/
def submissions (env : Surroundings) (s : Session) : Routine α → List (Site × Edit)
  | .done _ => []
  | .ask q next =>
    let (a, t) := s.answer env q
    q.submission?.toList ++ submissions env t (next a)

theorem submissions_ask (env : Surroundings) (s : Session) (q : Query) (next : q.Answer → Routine α) :
    s.submissions env (.ask q next) =
      q.submission?.toList ++ (s.answer env q).2.submissions env (next (s.answer env q).1) := rfl

/-- A sequence submits what its first part submits, and then what its second part submits unless the first one failed. -/
theorem submissions_bind (env : Surroundings) (s : Session) (r : Routine α) (f : α → Routine β) :
    s.submissions env (r >>= f) = s.submissions env r ++
      match s.run env r with
      | (.ok a, t) => t.submissions env (f a)
      | (.error _, _) => [] := by
  induction r generalizing s with
  | done outcome => cases outcome <;> rfl
  | ask q next ih =>
    rw [Routine.ask_bind, submissions_ask, ih, submissions_ask, List.append_assoc]
    rfl

/-- An attempt submits what the routine submits. -/
theorem submissions_attempt (env : Surroundings) (s : Session) (r : Routine α) :
    s.submissions env r.attempt = s.submissions env r := by
  induction r generalizing s with
  | done outcome => rfl
  | ask q next ih => rw [Routine.attempt, submissions_ask, ih, submissions_ask]

/-- A quiet routine submits nothing. -/
theorem submissions_of_quiet {r : Routine α} (h : r.Quiet) (env : Surroundings) (s : Session) : s.submissions env r = [] := by
  induction h generalizing s with
  | done outcome => rfl
  | @ask q next hq _ ih =>
    rw [submissions_ask, ih, List.append_nil]
    cases q <;> first | rfl | exact absurd hq Bool.false_ne_true

end Session

end UserScripts
