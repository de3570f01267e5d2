import UserScripts.Proofs.Manager.Outcome

/-!
# Refused calls

Which calls a wiki refuses in the course of a run. What a run comes to can then be said by the calls that have really been refused and
not by those that might have been: a run in which none has been refused is a run in calm surroundings. Main statements: `refusals_bind`
and `run_of_refusals_eq_nil`.
-/

namespace UserScripts

/-- The call that an answer shows to have been refused. -/
def Query.refusal? : (q : Query) → q.Answer → Option (Site × Call)
  | .read site title, .error _ => some (site, .read title)
  | .save site edit, .error _ => some (site, .save edit.title)
  | _, _ => none

namespace Session

variable {α β : Type} {env env' : Surroundings} {s : Session}

/-- The calls that are refused when a routine is carried out, each with its site. -/
def refusals (env : Surroundings) (s : Session) : Routine α → List (Site × Call)
  | .done _ => []
  | .ask q next =>
    let (a, t) := s.answer env q
    (q.refusal? a).toList ++ refusals env t (next a)

/-- The first answer tells whether the first call is refused, and the rest of the run whether others are. -/
theorem refusals_ask (env : Surroundings) (s : Session) (q : Query) (next : q.Answer → Routine α) :
    s.refusals env (.ask q next) =
      (q.refusal? (s.answer env q).1).toList ++ (s.answer env q).2.refusals env (next (s.answer env q).1) := rfl

/-- In a sequence the calls of the first part are refused, and then those of the second part unless the first one failed. -/
theorem refusals_bind (env : Surroundings) (s : Session) (r : Routine α) (f : α → Routine β) :
    s.refusals env (r >>= f) = s.refusals env r ++
      match s.run env r with
      | (.ok a, t) => t.refusals env (f a)
      | (.error _, _) => [] := by
  induction r generalizing s with
  | done outcome => cases outcome <;> rfl
  | ask q next ih =>
    rw [Routine.ask_bind, refusals_ask, ih, refusals_ask, List.append_assoc]
    rfl

/-- The refused calls of two parts in sequence, where the first one comes to a value. -/
theorem refusals_bind_of_ok {r : Routine α} {a : α} (h : (s.run env r).1 = .ok a) (f : α → Routine β) :
    s.refusals env (r >>= f) = s.refusals env r ++ (s.run env r).2.refusals env (f a) := by
  rw [refusals_bind, show s.run env r = (.ok a, (s.run env r).2) from Prod.ext h rfl]

/-- The refused calls of two parts in sequence, where the first one fails. -/
theorem refusals_bind_of_error {r : Routine α} {e : Failure} (h : (s.run env r).1 = .error e) (f : α → Routine β) :
    s.refusals env (r >>= f) = s.refusals env r := by
  rw [refusals_bind, show s.run env r = (.error e, (s.run env r).2) from Prod.ext h rfl, List.append_nil]

/-- In an attempt the same calls are refused. -/
theorem refusals_attempt (env : Surroundings) (s : Session) (r : Routine α) : s.refusals env r.attempt = s.refusals env r := by
  induction r generalizing s with
  | done outcome => rfl
  | ask q next ih => rw [Routine.attempt, refusals_ask, ih, refusals_ask]

/-- Nothing is refused to a routine that leaves the wikis alone. -/
theorem refusals_of_quiet {r : Routine α} (h : r.Quiet) (env : Surroundings) (s : Session) : s.refusals env r = [] := by
  induction h generalizing s with
  | done outcome => rfl
  | @ask q next hq _ ih =>
    rw [refusals_ask, ih, List.append_nil]
    cases q <;> first | rfl | nomatch hq

/-- In calm surroundings nothing is refused. -/
theorem refusals_of_calm (calm : env.Calm) (s : Session) (r : Routine α) : s.refusals env r = [] := by
  induction r generalizing s with
  | done outcome => rfl
  | ask q next ih =>
    rw [refusals_ask, ih, List.append_nil, Option.toList_eq_nil_iff]
    cases q with
    | read site title =>
      obtain ⟨n, call, message, refused, -⟩ | hread := Manager.read_cases env s site title
      · nomatch (calm n call).symm.trans refused
      · rw [answer, hread]
        rfl
    | save site edit =>
      obtain ⟨n, call, message, refused, -⟩ | hsave := Manager.save_cases env s site edit
      · nomatch (calm n call).symm.trans refused
      · rw [answer, hsave]
        rfl
    | _ => rfl

/-! ## Runs without refused calls -/

/-- A page that has been read is read in calm surroundings too, with the same effect. -/
theorem read_of_ok {site : Site} {title text : String} (calm : env'.Calm) (h : (s.read env site title).1 = .ok text) :
    s.read env site title = s.read env' site title := by
  have hnone := calm s.calls (.read title)
  unfold read at h ⊢
  simp only [call] at h ⊢
  split at h
  · next hasks =>
    rw [if_pos hasks, if_pos hasks, hnone]
    cases ho : env.outage s.calls (.read title) with
    | none => rfl
    | some message => rw [ho] at h; cases h
  · next hasks => rw [if_neg hasks, if_neg hasks]

/-- An edit that has been saved is saved in calm surroundings too, with the same effect. -/
theorem save_of_ok {site : Site} {edit : Edit} (calm : env'.Calm) (h : (s.save env site edit).1 = .ok ()) :
    s.save env site edit = s.save env' site edit := by
  have hnone := calm s.calls (.save edit.title)
  unfold save at h ⊢
  simp only [call] at h ⊢
  split at h
  · next hdraft =>
    rw [if_pos hdraft, if_pos hdraft, hnone]
    cases ho : env.outage s.calls (.save edit.title) with
    | none => rfl
    | some message => rw [ho] at h; cases h
  · next hdraft => rw [if_neg hdraft, if_neg hdraft]

/-- A query that is not refused is answered as in calm surroundings. -/
theorem answer_of_refusal?_eq_none (calm : env'.Calm) (hsource : env'.source = env.source) (q : Query)
    (h : q.refusal? (s.answer env q).1 = none) : s.answer env q = s.answer env' q := by
  cases q with
  | read site title =>
    cases hread : (s.read env site title).1 with
    | error failure => rw [answer, hread] at h; cases h
    | ok text => exact read_of_ok calm hread
  | save site edit =>
    cases hsave : (s.save env site edit).1 with
    | error failure => rw [answer, hsave] at h; cases h
    | ok _ => exact save_of_ok calm hsave
  | lookup host page => rw [answer, answer, hsource]
  | _ => rfl

/-- A run in which no call has been refused is a run in calm surroundings. -/
theorem run_of_refusals_eq_nil (calm : env'.Calm) (hsource : env'.source = env.source) {r : Routine α}
    (h : s.refusals env r = []) : s.run env r = s.run env' r := by
  induction r generalizing s with
  | done outcome => rfl
  | ask q next ih =>
    rw [refusals_ask, List.append_eq_nil_iff, Option.toList_eq_nil_iff] at h
    rw [run_ask, run_ask, ← answer_of_refusal?_eq_none calm hsource q h.1]
    exact ih _ h.2

end Session

end UserScripts
