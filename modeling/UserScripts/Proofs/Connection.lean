import Mathlib.Tactic.Common
import UserScripts.Connection

/-!
# Connections are logged in

A call tries the steps that open the connection, unless it is open, and then those for its page, up to the first that fails
(`serve_cases`). So between calls a connection whose user logs in is open exactly if a login has succeeded, and whether a step is one
for a page or one that opens the connection depends on that alone. Main statement: `never_anonymous`, what each call of a run does.
-/

namespace UserScripts.Connection

variable {account : Account} {c : Connection} {steps rest pages : List Step} {old new own : List Attempt} {fault : Option Fault}

/-! ## Trails -/

/-- A step that has been tried and has not failed. -/
def Attempt.success (step : Step) : Attempt :=
  ⟨step, none⟩

/-- The attempts that steps lead to, up to the first that fails, and the fault of that one. -/
inductive Trail : List Step → List Attempt → Option Fault → Prop
  | done : Trail [] [] none
  | fail (step : Step) (rest : List Step) (fault : Fault) : Trail (step :: rest) [⟨step, some fault⟩] (some fault)
  | pass (step : Step) {rest : List Step} {new : List Attempt} {fault : Option Fault} (tail : Trail rest new fault) :
    Trail (step :: rest) (.success step :: new) fault

/-- Steps of which none fails. -/
theorem Trail.all (steps : List Step) : Trail steps (steps.map .success) none := by
  induction steps with
  | nil => exact .done
  | cons step rest ih => exact .pass step ih

/-- Where no attempt has failed, the attempts are the steps themselves. -/
theorem Trail.eq_map_of_none (h : Trail steps new none) : new = steps.map .success := by
  generalize hnone : none = fault at h
  induction h with
  | done => rfl
  | fail => cases hnone
  | pass step _ ih => rw [ih hnone, List.map_cons]

/-- Steps that all succeed, followed by further steps: the attempts follow one another, and the fault is that of the further
steps. -/
theorem Trail.append (h : Trail steps new none) (hown : Trail pages own fault) : Trail (steps ++ pages) (new ++ own) fault := by
  generalize hnone : none = before at h
  induction h with
  | done => exact hown
  | fail => cases hnone
  | pass step _ ih => exact .pass step (ih hnone)

/-- The fault is that of the attempt that has failed. -/
theorem Trail.fault_iff (h : Trail steps new fault) (f : Fault) : fault = some f ↔ ∃ x ∈ new, x.fault = some f := by
  induction h with
  | done => simp
  | fail => simp
  | pass _ _ ih => simp [ih, Attempt.success]

/-- Only the last attempt has failed. -/
theorem Trail.eq_nil_of_fault (h : Trail steps new fault) {before after : List Attempt} {x : Attempt}
    (heq : new = before ++ x :: after) (hx : x.fault ≠ none) : after = [] := by
  induction h generalizing before with
  | done => simp at heq
  | fail step rest fault =>
    cases before with
    | nil => exact (List.cons.inj heq).2.symm
    | cons y before => simp at heq
  | pass step _ ih =>
    cases before with
    | nil =>
      obtain ⟨rfl, -⟩ := List.cons.inj heq
      exact absurd rfl hx
    | cons y before => exact ih (List.cons.inj heq).2

/-- Of steps of which one fails the last one does not succeed. -/
theorem Trail.step_mem_dropLast {f : Fault} (h : Trail steps new (some f)) {x : Attempt} (hx : x ∈ new) (hfault : x.fault = none) :
    x.step ∈ steps.dropLast := by
  generalize hsome : some f = fault at h
  induction h with
  | done => cases hsome
  | fail step rest fault =>
    rw [List.mem_singleton.mp hx] at hfault
    cases hfault
  | @pass step rest _ _ tail ih =>
    have hrest : rest ≠ [] := by
      rintro rfl
      cases tail
      cases hsome
    rw [List.dropLast_cons_of_ne_nil hrest]
    rcases List.mem_cons.mp hx with rfl | hx
    · exact List.mem_cons_self
    · exact List.mem_cons_of_mem _ (ih hx hsome)

/-- Steps that are tried in order leave a trail, and they fail with the fault of the trail. -/
theorem attemptAll_trail (r : Remote) (c : Connection) (steps : List Step) : ∃ new fault, Trail steps new fault ∧
    c.attemptAll r steps = (fault.elim (.ok ()) .error, { c with tried := c.tried ++ new }) := by
  induction steps generalizing c with
  | nil => exact ⟨[], none, .done, by rw [attemptAll, List.append_nil]; rfl⟩
  | cons step rest ih =>
    rw [attemptAll, attempt]
    cases hfault : r.fault c.tried.length step with
    | some f => exact ⟨_, _, .fail step rest f, rfl⟩
    | none =>
      obtain ⟨new, fault, htrail, heq⟩ := ih { c with tried := c.tried ++ [⟨step, none⟩] }
      refine ⟨_, _, .pass step htrail, ?_⟩
      simpa [Attempt.success] using heq

/-! ## Calls -/

/-- What a call can do: the connection is not open and cannot be opened, or it is open or has been opened and the steps for the page
are tried. -/
theorem serve_cases (r : Remote) (c : Connection) (call : Call) :
    (c.isOpen = false ∧ ∃ new f, Trail c.opening new (some f) ∧
      c.serve r call = (.error (f.failed (call.subject c.account.host)), { c with tried := c.tried ++ new })) ∨
    ∃ opened own fault c', opened = (if c.isOpen then [] else c.opening) ∧
      Trail (stepsOf r { c with isOpen := true, tried := c.tried ++ opened.map .success } call) own fault ∧
      c' = { c with isOpen := true, tried := c.tried ++ (opened.map .success ++ own) } ∧
      c.serve r call = (fault.elim (.ok (c'.answer r call)) fun f => .error (f.failed (call.subject c.account.host)), c') := by
  obtain ⟨account, isOpen, tried⟩ := c
  have hpages (tried : List Attempt) := attemptAll_trail r ⟨account, true, tried⟩ (stepsOf r ⟨account, true, tried⟩ call)
  cases isOpen with
  | true =>
    obtain ⟨own, fault, htrail, heq⟩ := hpages tried
    refine .inr ⟨[], own, fault, _, rfl, by simpa using htrail, rfl, ?_⟩
    rw [serve, connect, if_pos rfl]
    dsimp only
    rw [heq]
    cases fault <;> rfl
  | false =>
    obtain ⟨new, fault, htrail, heq⟩ := attemptAll_trail r ⟨account, false, tried⟩ (opening ⟨account, false, tried⟩)
    rw [serve, connect, if_neg Bool.false_ne_true, heq]
    cases fault with
    | some f => exact .inl ⟨rfl, new, f, htrail, rfl⟩
    | none =>
      obtain rfl := htrail.eq_map_of_none
      obtain ⟨own, fault, hown, heq⟩ := hpages (tried ++ (opening ⟨account, false, tried⟩).map .success)
      refine .inr ⟨_, own, fault, _, rfl, hown, rfl, ?_⟩
      dsimp only [Option.elim]
      rw [heq, List.append_assoc]
      cases fault <;> rfl

/-! ## Logins -/

/-- Whether a step is one for a page, and none that opens the connection. -/
def Step.isPage : Step → Bool
  | .contact .. | .login .. => false
  | .find _ | .read _ | .save _ => true

/-- The steps of a call are all for a page: opening the connection is none of them. -/
theorem isPage_of_mem_stepsOf {r : Remote} {call : Call} {step : Step} (h : step ∈ stepsOf r c call) : step.isPage = true := by
  cases call with
  | get title =>
    rw [stepsOf] at h
    split at h <;> simp at h <;> rcases h with rfl | rfl <;> rfl
  | post edit =>
    simp only [stepsOf, List.mem_cons, List.not_mem_nil, or_false] at h
    rcases h with rfl | rfl <;> rfl

/-- The step that a call is made for. -/
def Call.goal : Call → Step
  | .get title => .find title
  | .post edit => .save edit

/-- The step that a call is made for is among its steps. -/
theorem goal_mem_stepsOf (r : Remote) (c : Connection) (call : Call) : call.goal ∈ stepsOf r c call := by
  cases call <;> simp [stepsOf, Call.goal]

/-- Every call has a step. -/
theorem stepsOf_ne_nil (r : Remote) (c : Connection) (call : Call) : stepsOf r c call ≠ [] := by
  cases call <;> exact List.cons_ne_nil _ _

/-- Before its last step a call saves nothing. -/
theorem save_not_mem_dropLast {opened : List Step} (hopened : ∀ step ∈ opened, step.isPage = false) (r : Remote) (c : Connection)
    (call : Call) (edit : Edit) : Step.save edit ∉ (opened ++ stepsOf r c call).dropLast := by
  rw [List.dropLast_append_of_ne_nil (stepsOf_ne_nil r c call), List.mem_append, not_or]
  refine ⟨fun h => Bool.false_ne_true (hopened _ h).symm, ?_⟩
  cases call with
  | get title =>
    rw [stepsOf]
    split <;> simp
  | post edit => simp [stepsOf]

/-- Whether one of the attempts was a login that succeeded. -/
def LoggedIn (account : Account) (tried : List Attempt) : Prop :=
  .success (.login account.user account.password) ∈ tried

/-- Whether each of some attempts after others is one for a page if a login has succeeded before, and one to open the connection
if none has. -/
def Guarded (account : Account) (old new : List Attempt) : Prop :=
  ∀ before x after, new = before ++ x :: after → (x.step.isPage = true ↔ LoggedIn account (old ++ before))

/-- No attempts at all are guarded. -/
theorem guarded_nil : Guarded account old [] := by
  intro before x after h
  simp at h

/-- A first attempt is guarded by the attempts before it, and it guards those after it. -/
theorem guarded_cons {x : Attempt} : Guarded account old (x :: new) ↔
    (x.step.isPage = true ↔ LoggedIn account old) ∧ Guarded account (old ++ [x]) new := by
  constructor
  · intro h
    refine ⟨?_, fun before y after heq => ?_⟩
    · simpa using h [] x new rfl
    · simpa using h (x :: before) y after (by rw [heq, List.cons_append])
  · rintro ⟨hhead, htail⟩ before y after heq
    cases before with
    | nil =>
      obtain ⟨rfl, -⟩ := List.cons.inj heq
      rwa [List.append_nil]
    | cons z before =>
      obtain ⟨rfl, hrest⟩ := List.cons.inj heq
      simpa using htail before y after hrest

/-- Attempts in two parts are guarded if the first part is guarded and the second one is after the first. -/
theorem guarded_append : Guarded account old (new ++ own) ↔ Guarded account old new ∧ Guarded account (old ++ new) own := by
  induction new generalizing old with
  | nil => simp [guarded_nil]
  | cons x new ih => rw [List.cons_append, guarded_cons, guarded_cons, ih, and_assoc, List.append_assoc, List.singleton_append]

/-- A login that has succeeded is not undone by further attempts. -/
theorem LoggedIn.append (h : LoggedIn account old) (new : List Attempt) : LoggedIn account (old ++ new) :=
  List.mem_append_left _ h

/-- After a login a trail for a page is guarded. -/
theorem Trail.guarded_of_loggedIn (h : Trail pages new fault) (hpages : ∀ step ∈ pages, step.isPage = true)
    (hin : LoggedIn account old) : Guarded account old new := by
  induction h generalizing old with
  | done => exact guarded_nil
  | fail step rest fault => exact guarded_cons.mpr ⟨iff_of_true (hpages step List.mem_cons_self) hin, guarded_nil⟩
  | pass step _ ih =>
    obtain ⟨hstep, hrest⟩ := List.forall_mem_cons.mp hpages
    exact guarded_cons.mpr ⟨iff_of_true hstep hin, ih hrest (hin.append _)⟩

/-- Before a login a trail is guarded that opens the connection first. -/
theorem Trail.guarded_of_not_loggedIn {host scheme path : String}
    (h : Trail (.contact host scheme path :: .login account.user account.password :: pages) new fault)
    (hpages : ∀ step ∈ pages, step.isPage = true) (hout : ¬LoggedIn account old) : Guarded account old new := by
  cases h with
  | fail => exact guarded_cons.mpr ⟨iff_of_false Bool.false_ne_true hout, guarded_nil⟩
  | pass _ h =>
    have hout' : ¬LoggedIn account (old ++ [.success (.contact host scheme path)]) := by
      simpa [LoggedIn, Attempt.success] using hout
    refine guarded_cons.mpr ⟨iff_of_false Bool.false_ne_true hout, ?_⟩
    cases h with
    | fail => exact guarded_cons.mpr ⟨iff_of_false Bool.false_ne_true hout', guarded_nil⟩
    | pass _ h =>
      refine guarded_cons.mpr ⟨iff_of_false Bool.false_ne_true hout', h.guarded_of_loggedIn hpages ?_⟩
      exact List.mem_append_right _ (List.mem_singleton_self _)

/-! ## Runs -/

/-- What a call does with a connection whose user logs in: it tries the new steps after the old ones, with an outcome. -/
structure Orderly (account : Account) (old new : List Attempt) (call : Call) (outcome : Except Failed Answer) : Prop where
  /-- No step for a page is tried before a login has succeeded, and after that no other step is. -/
  guarded : Guarded account old new
  /-- As long as no login has succeeded, the site is contacted anew and, if that succeeds, the login is tried anew. -/
  anew : ¬LoggedIn account old → ∃ fault rest, new = ⟨.contact account.host account.scheme account.path, fault⟩ :: rest ∧
    (fault = none → ∃ fault rest', rest = ⟨.login account.user account.password, fault⟩ :: rest')
  /-- Nothing is tried after a step that has failed. -/
  upToFault : ∀ before x after, new = before ++ x :: after → x.fault ≠ none → after = []
  /-- The call fails for the transport exactly if the step that has failed did so for the wiki or the network. -/
  transport : ∀ message, outcome = .error (.transport message) ↔
    ∃ x ∈ new, ∃ reason, x.fault = some (.service reason) ∧ message = call.subject account.host ++ ": " ++ reason
  /-- Any other fault of a step is passed on unchanged, and nothing else is. -/
  passed : ∀ kind message, outcome = .error (.passed kind message) ↔ ∃ x ∈ new, x.fault = some (.other kind message)
  /-- A call that fails has saved nothing. -/
  savedNothing : ∀ reason, outcome = .error reason → ∀ edit, .success (.save edit) ∉ new
  /-- A call that does not fail has found its page or saved its edit. -/
  served : ∀ answer, outcome = .ok answer → .success call.goal ∈ new

/-- The outcome of a trail. -/
theorem Trail.orderly {call : Call} (h : Trail steps new fault) (answer : Answer) (guarded : Guarded account old new)
    (anew : ¬LoggedIn account old → ∃ rest,
      steps = .contact account.host account.scheme account.path :: .login account.user account.password :: rest)
    (hsave : ∀ edit, Step.save edit ∉ steps.dropLast) (hgoal : fault = none → call.goal ∈ steps) :
    Orderly account old new call (fault.elim (.ok answer) fun f => .error (f.failed (call.subject account.host))) where
  guarded := guarded
  anew hout := by
    obtain ⟨rest, rfl⟩ := anew hout
    cases h with
    | fail => exact ⟨_, _, rfl, nofun⟩
    | pass _ h =>
      refine ⟨_, _, rfl, fun _ => ?_⟩
      cases h <;> exact ⟨_, _, rfl⟩
  upToFault before x after heq hx := h.eq_nil_of_fault heq hx
  transport message := by
    have hfault : (∃ x ∈ new, ∃ reason, x.fault = some (.service reason) ∧ message = call.subject account.host ++ ": " ++ reason) ↔
        ∃ reason, fault = some (.service reason) ∧ message = call.subject account.host ++ ": " ++ reason := by
      simp only [h.fault_iff]
      exact ⟨fun ⟨x, hx, reason, hf, hm⟩ => ⟨reason, ⟨x, hx, hf⟩, hm⟩, fun ⟨reason, ⟨x, hx, hf⟩, hm⟩ => ⟨x, hx, reason, hf, hm⟩⟩
    rw [hfault]
    cases fault with
    | none => simp
    | some f => cases f <;> simp [Fault.failed, eq_comm]
  passed kind message := by
    rw [← h.fault_iff]
    cases fault with
    | none => simp
    | some f => cases f <;> simp [Fault.failed]
  savedNothing reason houtcome edit hmem := by
    cases fault with
    | none => cases houtcome
    | some f => exact hsave edit (h.step_mem_dropLast hmem rfl)
  served answer houtcome := by
    cases fault with
    | none =>
      rw [h.eq_map_of_none]
      exact List.mem_map_of_mem (hgoal rfl)
    | some f => cases houtcome

/-- What holds of a connection between calls: it is open exactly if a login has succeeded, and all attempts are guarded. -/
structure Valid (account : Account) (c : Connection) : Prop where
  account_eq : c.account = account
  isOpen_iff : c.isOpen = true ↔ LoggedIn account c.tried
  guarded : Guarded account [] c.tried

/-- A connection with a login is opened in two steps: the site is contacted, then the user logs in. -/
theorem opening_of_logsIn (hlogs : c.account.logsIn = true) : c.opening =
    [.contact c.account.host c.account.scheme c.account.path, .login c.account.user c.account.password] := by
  rw [opening, if_pos hlogs]

/-- The step lemma: a call on a valid connection does what `Orderly` says and leaves the connection valid. -/
theorem serve_orderly (hlogs : account.logsIn = true) (hvalid : Valid account c) (r : Remote) (call : Call) :
    ∃ new, (c.serve r call).2.tried = c.tried ++ new ∧ Orderly account c.tried new call (c.serve r call).1 ∧
      Valid account (c.serve r call).2 := by
  obtain ⟨rfl, hopen, hguarded⟩ := hvalid
  have hopening := opening_of_logsIn hlogs
  rcases serve_cases r c call with ⟨hclosed, new, f, htrail, heq⟩ | ⟨opened, own, fault, c', hopened, htrail, rfl, heq⟩
  · have hout : ¬LoggedIn c.account c.tried := fun h => by rw [hopen.mpr h] at hclosed; cases hclosed
    rw [hopening] at htrail
    have hnew : Guarded c.account c.tried new := htrail.guarded_of_not_loggedIn nofun hout
    rw [heq]
    refine ⟨new, rfl, htrail.orderly .saved hnew (fun _ => ⟨[], rfl⟩) (by simp) nofun, rfl, ?_, ?_⟩
    · refine iff_of_false (by simp [hclosed]) fun hin => ?_
      rcases List.mem_append.mp hin with hin | hin
      · exact hout hin
      · simpa [Attempt.success] using htrail.step_mem_dropLast hin rfl
    · exact guarded_append.mpr ⟨hguarded, hnew⟩
  · have hpages : ∀ step ∈ stepsOf r { c with isOpen := true, tried := c.tried ++ opened.map .success } call, step.isPage = true :=
      fun _ => isPage_of_mem_stepsOf
    have hall := (Trail.all opened).append htrail
    have hfirst : opened = [] ∧ LoggedIn c.account c.tried ∨
        opened = [.contact c.account.host c.account.scheme c.account.path, .login c.account.user c.account.password] ∧
          ¬LoggedIn c.account c.tried := by
      rw [hopened, ← hopen, hopening]
      cases c.isOpen <;> simp
    have hnew : Guarded c.account c.tried (opened.map .success ++ own) := by
      rcases hfirst with ⟨rfl, hin⟩ | ⟨rfl, hout⟩
      · exact htrail.guarded_of_loggedIn hpages hin
      · exact hall.guarded_of_not_loggedIn hpages hout
    have hin : LoggedIn c.account (c.tried ++ (opened.map .success ++ own)) := by
      rcases hfirst with ⟨-, hin⟩ | ⟨rfl, -⟩
      · exact hin.append _
      · simp [LoggedIn]
    have hopened : ∀ step ∈ opened, step.isPage = false := by
      rcases hfirst with ⟨rfl, -⟩ | ⟨rfl, -⟩
      · nofun
      · simp [Step.isPage]
    rw [heq]
    refine ⟨_, rfl, hall.orderly _ hnew ?_ (save_not_mem_dropLast hopened r _ call)
      fun _ => List.mem_append_right _ (goal_mem_stepsOf r _ call), rfl, iff_of_true rfl hin, guarded_append.mpr ⟨hguarded, hnew⟩⟩
    intro hout
    rcases hfirst with ⟨-, hin⟩ | ⟨rfl, -⟩
    · exact absurd hin hout
    · exact ⟨_, rfl⟩

/-- Between the calls of a run the connection stays valid. -/
theorem valid_serveAll (hlogs : account.logsIn = true) (hvalid : Valid account c) (r : Remote) (calls : List Call) :
    Valid account (c.serveAll r calls) := by
  induction calls generalizing c with
  | nil => exact hvalid
  | cons call calls ih =>
    obtain ⟨-, -, -, hnext⟩ := serve_orderly hlogs hvalid r call
    exact ih hnext

/-- A connection that nothing has been tried on is valid. -/
theorem valid_new (account : Account) : Valid account { account } :=
  ⟨rfl, by simp [LoggedIn], guarded_nil⟩

/-- Whatever fails, a connection whose user logs in is never used without a login: after any calls, the next one is orderly. -/
theorem never_anonymous (hlogs : account.logsIn = true) (r : Remote) (calls : List Call) (call : Call) :
    Guarded account [] (serveAll r { account } calls).tried ∧
    ∃ new, ((serveAll r { account } calls).serve r call).2.tried = (serveAll r { account } calls).tried ++ new ∧
      Orderly account (serveAll r { account } calls).tried new call ((serveAll r { account } calls).serve r call).1 := by
  have hvalid := valid_serveAll hlogs (valid_new account) r calls
  obtain ⟨new, htried, horderly, -⟩ := serve_orderly hlogs hvalid r call
  exact ⟨hvalid.guarded, new, htried, horderly⟩

/-- The site refuses the first login and cannot be contacted the second time, and the third call saves its edit. -/
theorem never_anonymous_third_call :
    let account : Account := { host := "en.wikipedia.org", scheme := "https", user := "Alice", password := "secret" }
    let r : Remote := { fault := fun n _ =>
      if n = 1 then some (.service "wrong password") else if n = 2 then some (.other "ValueError" "no version") else none }
    let calls : List Call := [.get "User:Alice/common.js", .get "User:Alice/vector.js"]
    let edit : Edit := ⟨"User:Alice/common.js", "Normalizing script imports", .replace ""⟩
    account.logsIn = true ∧ Guarded account [] (serveAll r { account } calls).tried ∧
      ∃ new, Orderly account (serveAll r { account } calls).tried new (.post edit)
          ((serveAll r { account } calls).serve r (.post edit)).1 ∧
        .success (.save edit) ∈ new := by
  intro account r calls edit
  have hlogs : account.logsIn = true := by decide
  obtain ⟨hguarded, new, -, horderly⟩ := never_anonymous hlogs r calls (.post edit)
  have hsaved : ((serveAll r { account } calls).serve r (.post edit)).1 = .ok .saved := by decide
  exact ⟨hlogs, hguarded, new, horderly, horderly.served .saved hsaved⟩

end UserScripts.Connection
