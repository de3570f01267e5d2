import UserScripts.Lock
import UserScripts.Session

/-!
# Operations side by side

Operations that are started together in one session share its wikis, its cache and its lock, and go on step by step. A step is the
answer to a query, a call for a key, or the entry when the lock lets the operation in; an operation whose key is not free has no
step. Nothing is said about the order in which the operations have their steps, so every order in which calls to the wikis come
back is covered. Main definitions: `Gathering.step`, a step of an operation, and `Gathering.run`.
-/

namespace UserScripts

/-- A call for a key: the place of the operation that calls, and how many keys it has got before. -/
@[ext]
structure Caller where
  member : Nat
  count : Nat
  key : String
deriving DecidableEq, Repr

/-- An operation that runs beside others. -/
structure Member (α : Type) where
  /-- What it still has to do. -/
  rest : Routine α
  /-- Whether it has called for the key that it asks for next. -/
  called : Bool := false
  /-- How many keys it has got so far. -/
  count : Nat := 0
  /-- Its calls for the keys that it holds, the newest first. -/
  held : List Caller := []

/-- Operations that run side by side in a session. -/
structure Gathering (α : Type) where
  session : Session
  lock : Lock Caller := {}
  members : List (Member α)

namespace Gathering

variable {α : Type}

/-- Operations that are started together. -/
def ofRoutines (session : Session) (routines : List (Routine α)) : Gathering α :=
  { session, members := routines.map fun rest => { rest } }

/-- The gathering with another state of one of its operations. -/
def put (g : Gathering α) (i : Nat) (member : Member α) : Gathering α :=
  { g with members := g.members.set i member }

/-- An operation that asks for a key calls for it, and then it enters as soon as the lock lets it in. -/
def acquire (g : Gathering α) (i : Nat) (member : Member α) (key : String) (next : Unit → Routine α) : Option (Gathering α) :=
  let caller : Caller := { member := i, count := member.count, key }
  if member.called then
    let lock := g.lock.turn caller
    if (lock.ticket? caller).any (·.phase = .inside) then
      some { g.put i { rest := next (), count := member.count + 1, held := caller :: member.held } with lock }
    else none
  else some { g.put i { member with called := true } with lock := g.lock.draw caller key }

/-- An operation gives back the key that it has got last. -/
def release (g : Gathering α) (i : Nat) (member : Member α) (next : Unit → Routine α) : Gathering α :=
  match member.held with
  | [] => g.put i { member with rest := next () }
  | caller :: held => { g.put i { member with rest := next (), held } with lock := g.lock.conclude caller .success }

/-- A step of the operation in a place, if it has one: an operation that has ended has none, nor has one that waits for a key. -/
def step (env : Surroundings) (g : Gathering α) (i : Nat) : Option (Gathering α) :=
  match g.members[i]? with
  | none => none
  | some member =>
    match member.rest with
    | .done _ => none
    | .ask (.acquire key) next => g.acquire i member key next
    | .ask (.release _) next => some (g.release i member next)
    | .ask q next =>
      let (a, session) := g.session.answer env q
      some { g.put i { member with rest := next a } with session }

/-- The gathering after operations have had steps in some order. An operation that has none is passed over. -/
def run (env : Surroundings) (g : Gathering α) (order : List Nat) : Gathering α :=
  order.foldl (fun g i => (g.step env i).getD g) g

/-- Whether all operations have ended. -/
def isOver (g : Gathering α) : Bool :=
  g.members.all fun member =>
    match member.rest with
    | .done _ => true
    | .ask _ _ => false

end Gathering

end UserScripts
