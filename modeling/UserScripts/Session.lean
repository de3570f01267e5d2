import UserScripts.Cache
import UserScripts.Routine
import UserScripts.Wiki.Pages

/-!
# Sessions

What the queries of a routine do when it is carried out: it reads and saves pages through the services of the session, asks for
the sources of scripts, and uses the cache and the log. Any call to a wiki may fail, and a call that fails has no effect. A
routine that runs alone never waits for a key. The main statements, `run_bind` and `run_attempt`, say how sequences and attempts
are carried out.
-/

namespace UserScripts

/-- A call to a wiki. -/
inductive Call where
  | read (title : String)
  | save (title : String)
deriving DecidableEq, Repr

/-- What lies outside a session. -/
structure Surroundings where
  /-- Why a call fails, if it does. The calls to the wikis of a session are numbered. -/
  outage : Nat → Call → Option String := fun _ _ => none
  /-- The source of a page of any host, or why it cannot be had. -/
  source : String → String → Except String String := fun _ _ => .ok ""

/-- The state of a session. -/
structure Session where
  home : Service := {}
  /-- The service for the global target; without one, the home wiki serves it. -/
  central : Option Service := none
  cache : Cache := []
  /-- How many calls have been made to the wikis. -/
  calls : Nat := 0
  /-- The hosts and titles of the sources that have been asked for. -/
  lookups : List (String × String) := []
  log : List Note := []
deriving DecidableEq, Repr

namespace Session

/-- The service for a site. -/
def service (s : Session) : Site → Service
  | .home => s.home
  | .central => s.central.getD s.home

/-- The session with a changed service for a site. -/
def withService (s : Session) (site : Site) (service : Service) : Session :=
  match site, s.central with
  | .home, _ => { s with home := service }
  | .central, none => { s with home := service }
  | .central, some _ => { s with central := some service }

/-- The session after a note has been made. -/
def addNote (s : Session) (n : Note) : Session :=
  { s with log := s.log ++ [n] }

/-- A call to a wiki, which may fail and is counted in either case. -/
def call (env : Surroundings) (s : Session) (c : Call) : Option String × Session :=
  (env.outage s.calls c, { s with calls := s.calls + 1 })

/-- Reads a page. -/
def read (env : Surroundings) (s : Session) (site : Site) (title : String) : Except Failure String × Session :=
  let service := s.service site
  let seen := s.withService site (service.read title)
  if service.asksWiki title then
    match s.call env (.read title) with
    | (some message, s) => (.error (.transport message), s)
    | (none, _) => (.ok (service.text title), { seen with calls := s.calls + 1 })
  else (.ok (service.text title), seen)

/-- Saves an edit. A draft takes it without a call to the wiki. -/
def save (env : Surroundings) (s : Session) (site : Site) (edit : Edit) : Except Failure Unit × Session :=
  let service := s.service site
  let saved := (s.withService site (service.save edit)).addNote
    ⟨.wiki, .debug, "Recorded edit of " ++ edit.title ++ ": " ++ edit.summary⟩
  if service.draft.isNone then
    match s.call env (.save edit.title) with
    | (some message, s) => (.error (.transport message), s)
    | (none, _) => (.ok (), { saved with calls := s.calls + 1 })
  else (.ok (), saved)

/-- The answer to a query, and the session after it. -/
def answer (env : Surroundings) (s : Session) : (q : Query) → q.Answer × Session
  | .read site title => s.read env site title
  | .save site edit => s.save env site edit
  | .lookup host page => (env.source host page, { s with lookups := s.lookups ++ [(host, page)] })
  | .recall target => (Keyed.get? s.cache target, s)
  | .remember target text => ((), { s with cache := Keyed.put target text s.cache })
  | .forget target => ((), { s with cache := s.cache.forget target }.addNote (Cache.forgetNote target))
  | .note n => ((), s.addNote n)
  | .acquire _ => ((), s)
  | .release _ => ((), s)

/-- Carries out a routine that runs alone. -/
def run (env : Surroundings) (s : Session) : Routine α → Except Failure α × Session
  | .done outcome => (outcome, s)
  | .ask q next =>
    let (a, s) := s.answer env q
    run env s (next a)

variable {α β : Type}

@[simp]
theorem run_done (env : Surroundings) (s : Session) (outcome : Except Failure α) :
    s.run env (.done outcome) = (outcome, s) := rfl

@[simp]
theorem run_ask (env : Surroundings) (s : Session) (q : Query) (next : q.Answer → Routine α) :
    s.run env (.ask q next) = (s.answer env q).2.run env (next (s.answer env q).1) := rfl

@[simp]
theorem run_pure (env : Surroundings) (s : Session) (a : α) : s.run env (pure a) = (.ok a, s) := rfl

@[simp]
theorem run_query (env : Surroundings) (s : Session) (q : Query) :
    s.run env (Routine.query q) = (.ok (s.answer env q).1, (s.answer env q).2) := rfl

/-- A sequence runs its first part, and its second part from there unless the first one failed. -/
theorem run_bind (env : Surroundings) (s : Session) (r : Routine α) (f : α → Routine β) :
    s.run env (r >>= f) =
      match s.run env r with
      | (.ok a, t) => t.run env (f a)
      | (.error e, t) => (.error e, t) := by
  induction r generalizing s with
  | done outcome => cases outcome <;> rfl
  | ask q next ih => simp only [Routine.ask_bind, run_ask, ih]

/-- An attempt does what the routine does, and never fails. -/
theorem run_attempt (env : Surroundings) (s : Session) (r : Routine α) :
    s.run env r.attempt = (.ok (s.run env r).1, (s.run env r).2) := by
  induction r generalizing s with
  | done outcome => rfl
  | ask q next ih => simp only [Routine.attempt, run_ask, ih]

/-- The wikis of a session, the home wiki first. -/
def wikis (s : Session) : List Wiki :=
  s.home.wiki :: (s.central.map Service.wiki).toList

/-- The services of a session, the one of the home wiki first. -/
def services (s : Session) : List Service :=
  s.home :: s.central.toList

end Session

end UserScripts
