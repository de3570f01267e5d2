import UserScripts.Proofs.Manager.Orderly

/-!
# Requests

Everything that can be asked of the manager in a session, as one type, so that statements about all sequences of requests can be
made. A request is carried out by its routine, and requests that come one after the other are served in order, each in
surroundings of its own: they say which calls to the wikis are refused meanwhile. Main statement: `Request.orderly`.
-/

namespace UserScripts

open UserScripts.Text

/-- What a user can ask about targets without changing them. -/
inductive Inquiry where
  | text (target : String)
  | entries (target : String)
  | items (target : String)
  /-- The statements of some targets, or of all of them if none are given. -/
  | loaded (targets : List String)
  /-- The targets that load a page. -/
  | loading (page : String)
deriving DecidableEq, Repr

/-- What a request comes to if it does not fail. -/
inductive Reply where
  | text (text : String)
  | entries (entries : List Entry)
  | items (items : List Item)
  | loaded (loaded : Keyed String (List Entry))
  | targets (targets : List String)
  | changed (changed : Bool)
  | statuses (statuses : Keyed String Manager.Status)
  | nothing
deriving DecidableEq

/-- What a user can ask for. -/
inductive Request where
  | inquire (inquiry : Inquiry) (refresh : Bool)
  | operate (target : String) (op : Operation)
  | move (e : Entry) (destination : String)
  | normalizeAll (targets : List String)
  /-- The cache drops a target, or all of them. -/
  | forget (target : Option String)
deriving DecidableEq

namespace Inquiry

/-- The targets that an inquiry is about. -/
def targets (m : Manager) : Inquiry → List String
  | .text target => [target]
  | .entries target => [target]
  | .items target => [target]
  | .loaded targets => if targets.isEmpty then m.settings.targets else targets
  | .loading _ => m.settings.targets

/-- The routine of an inquiry, which reads the pages afresh if `refresh` asks for it. -/
def routine (m : Manager) (refresh : Bool) : Inquiry → Routine Reply
  | .text target => do return .text (← m.getText target refresh)
  | .entries target => do return .entries (← m.listEntries target refresh)
  | .items target => do return .items (← m.listCaptured target refresh)
  | .loaded targets => do return .loaded (← m.loadAll targets refresh)
  | .loading page => do return .targets (Manager.targetsAmong page (← m.loadAll [] refresh))

end Inquiry

namespace Request

/-- The targets whose pages a request may read or edit. -/
def targets (m : Manager) : Request → List String
  | .inquire inquiry _ => inquiry.targets m
  | .operate target op => [op.place target]
  | .move e destination => [e.target, destination]
  | .normalizeAll targets => targets
  | .forget _ => []

/-- The routine of a request. -/
def routine (m : Manager) : Request → Routine Reply
  | .inquire inquiry refresh => inquiry.routine m refresh
  | .operate target op => do return .changed (← op.routine m target)
  | .move e destination => do return .changed (← m.move e destination)
  | .normalizeAll targets => do return .statuses (← m.normalizeBatch targets)
  | .forget target => do
    Routine.query (.forget target)
    return .nothing

end Request

namespace Manager

open Routine

variable {m : Manager} {within read : List String}

/-- Serves requests one after the other, each in surroundings of its own, and gives what they come to and the session after them. A
request that fails does not keep the others from being served. -/
def serve (m : Manager) (s : Session) : List (Surroundings × Request) → List (Except Failure Reply) × Session
  | [] => ([], s)
  | (env, request) :: rest =>
    let (outcome, s) := s.run env (request.routine m)
    let (outcomes, s) := m.serve s rest
    (outcome :: outcomes, s)

/-- Requests are served one after the other, each in the session that the ones before it leave. -/
theorem serve_cons (m : Manager) (s : Session) (env : Surroundings) (request : Request) (rest : List (Surroundings × Request)) :
    m.serve s ((env, request) :: rest) =
      ((s.run env (request.routine m)).1 :: (m.serve (s.run env (request.routine m)).2 rest).1,
        (m.serve (s.run env (request.routine m)).2 rest).2) := rfl

/-- An operation on a target is orderly on it. -/
theorem orderly_operation {target : String} {op : Operation} (h : op.place target ∈ within) :
    Orderly m within (fun _ _ => True) read (op.routine m target) := by
  cases op with
  | install e => exact orderly_install h
  | uninstall e => exact orderly_uninstall h
  | setDisabled e disabled => exact orderly_setDisabled h
  | normalize => exact orderly_normalize h
  | capture e name => exact orderly_capture h
  | decapture e => exact orderly_decapture h

end Manager

open Routine

variable {m : Manager} {within read : List String}

/-- An inquiry is orderly on the targets that it is about. -/
theorem Inquiry.orderly {i : Inquiry} {refresh : Bool} (h : i.targets m ⊆ within) :
    Orderly m within (fun _ _ => True) read (i.routine m refresh) := by
  cases i with
  | text target => exact (Manager.orderly_getText (h List.mem_cons_self)).bind fun _ _ _ => .done trivial
  | entries target => exact (Manager.orderly_listEntries (h List.mem_cons_self)).bind fun _ _ _ => .done trivial
  | items target => exact (Manager.orderly_listCaptured (h List.mem_cons_self)).bind fun _ _ _ => .done trivial
  | loaded targets => exact (Manager.orderly_loadAll h).bind fun _ _ _ => .done trivial
  | loading page =>
    have hall : Orderly m within (fun _ loaded => ∀ p ∈ loaded, p.1 ∈ within) read (m.loadAll [] refresh) := Manager.orderly_loadAll h
    exact hall.bind fun _ _ _ => .done trivial

/-- Every request deals with the pages of its targets in an orderly way. -/
theorem Request.orderly {request : Request} (h : request.targets m ⊆ within) :
    Orderly m within (fun _ _ => True) read (request.routine m) := by
  cases request with
  | inquire inquiry refresh => exact Inquiry.orderly h
  | operate target op => exact (Manager.orderly_operation (h List.mem_cons_self)).bind fun _ _ _ => .done trivial
  | move e destination =>
    have hdestination : destination ∈ within := h (List.mem_cons_of_mem _ List.mem_cons_self)
    exact (Manager.orderly_move (h List.mem_cons_self) hdestination).bind fun _ _ _ => .done trivial
  | normalizeAll targets =>
    have hbatch : Orderly m within (fun _ _ => True) read (m.normalizeBatch targets) :=
      (Manager.orderly_normalizeAll fun target ht => h ht).bind fun _ _ _ => .done trivial
    exact hbatch.bind fun _ _ _ => .done trivial
  | forget target => exact .quiet rfl rfl fun _ => .done trivial

end UserScripts
