import UserScripts.Keyed
import UserScripts.Text.Blank
import UserScripts.Text.Case

/-!
# The lock

Operations on the same key run one after the other, in the order in which they came; operations on different keys do not know of
each other. An operation draws a ticket and waits until the ticket right before its own on the key is released. The queue as a whole
is written down nowhere: a ticket names the one before it, and the lock keeps the newest ticket of each key. An operation that is
cancelled while it waits leaves at once, but its ticket is released only after the one before it.

What happens to a lock is a list of events. An operation calls, ends or is cancelled, and it has turns, in which it takes notice of
what others have done. Nothing is said about the order of events. Main definitions: `Lock.step`, what an event does, `Lock.run`, and
`Lock.settle`, which gives everyone a turn.
-/

namespace UserScripts

open UserScripts.Text

/-- How an action ends. -/
inductive Ending where
  | success
  | failure
  | cancelled
deriving DecidableEq, Repr

/-- Where the owner of a ticket stands. -/
inductive Phase where
  /-- The owner waits. An ending that is already decided takes effect as soon as it enters. -/
  | queued (ending : Option Ending)
  | inside
  | ended (ending : Ending)
  /-- The owner gave up while it waited. -/
  | abandoned
deriving DecidableEq, Repr

/-- The place of an operation in the queue of its key. -/
structure Ticket (ι : Type) where
  owner : ι
  key : String
  /-- The owner of the newest ticket of the key when this one was drawn, if the lock kept one. -/
  previous : Option ι
  phase : Phase
  /-- Whether the owner has been cancelled while it waited. -/
  cancelled : Bool := false
  /-- Whether the next one on the key may go ahead. -/
  released : Bool := false
deriving DecidableEq, Repr

/-- The tickets drawn so far, the newest first, and the owners of the newest tickets of the keys in use. -/
structure Lock (ι : Type) where
  tickets : List (Ticket ι) := []
  tails : Keyed String ι := []
deriving DecidableEq, Repr

/-- What can happen to an operation. -/
inductive Act where
  | call
  | finish (ending : Ending)
  | cancel
  /-- The operation takes notice of what has happened to it and to the one before it. -/
  | turn
deriving DecidableEq, Repr

/-- Something that happens to an operation. -/
structure Event (ι : Type) where
  owner : ι
  act : Act
deriving DecidableEq, Repr

namespace Lock

variable {ι : Type}

/-- The form in which keys are compared: without the blanks around them and in lower case. -/
def keyOf (name : String) : String :=
  lower (trim name)

variable [DecidableEq ι]

/-- The ticket of an owner. -/
def ticket? (l : Lock ι) (owner : ι) : Option (Ticket ι) :=
  l.tickets.find? (·.owner = owner)

/-- Whether nothing is left to wait for: there is no ticket before, or it is released. -/
def isFree (l : Lock ι) : Option ι → Bool
  | none => true
  | some owner => (l.ticket? owner).any Ticket.released

/-- The lock with another ticket in the place of the one of the same owner. -/
def put (l : Lock ι) (t : Ticket ι) : Lock ι :=
  { l with tickets := l.tickets.map fun u => if u.owner = t.owner then t else u }

/-- The ticket that an operation draws under a name. Without anything to wait for it enters right away. -/
def newTicket (l : Lock ι) (owner : ι) (name : String) : Ticket ι :=
  let key := keyOf name
  let previous := l.tails.get? key
  { owner, key, previous, phase := if l.isFree previous then .inside else .queued none }

/-- Draws a ticket. An operation calls once. -/
def draw (l : Lock ι) (owner : ι) (name : String) : Lock ι :=
  match l.ticket? owner with
  | some _ => l
  | none => { tickets := l.newTicket owner name :: l.tickets, tails := l.tails.put (keyOf name) owner }

/-- The owner of a ticket leaves. The ticket is released if the one before it is, and then the key is not in use unless a newer
ticket has been drawn. -/
def leave (l : Lock ι) (t : Ticket ι) (phase : Phase) : Lock ι :=
  let free := l.isFree t.previous
  let tails := if free && l.tails.get? t.key = some t.owner then l.tails.erase t.key else l.tails
  { l.put { t with phase, released := free } with tails }

/-- The action of an owner ends, at once or as soon as it is entered. A waiting owner keeps the first ending it is told. -/
def conclude (l : Lock ι) (owner : ι) (ending : Ending) : Lock ι :=
  match l.ticket? owner with
  | none => l
  | some t =>
    match t.phase with
    | .queued none => l.put { t with phase := .queued (some ending) }
    | .inside => l.leave t (.ended ending)
    | _ => l

/-- An operation is cancelled. If it waits it will notice at its next turn. -/
def stop (l : Lock ι) (owner : ι) : Lock ι :=
  match l.ticket? owner with
  | none => l
  | some t =>
    match t.phase with
    | .queued _ => l.put { t with cancelled := true }
    | .inside => l.leave t (.ended .cancelled)
    | _ => l

/-- Whether the owner of a ticket has something to take notice of. -/
def isPending (l : Lock ι) (t : Ticket ι) : Bool :=
  match t.phase with
  | .queued _ => t.cancelled || l.isFree t.previous
  | .inside => false
  | _ => !t.released && l.isFree t.previous

/-- What the owner of a ticket does when there is something to take notice of: it gives up, it enters, or it passes on that the
ticket before its own is released. -/
def proceed (l : Lock ι) (t : Ticket ι) : Lock ι :=
  match t.phase with
  | .queued ending =>
    if t.cancelled then l.leave t .abandoned
    else match ending with
      | none => l.put { t with phase := .inside }
      | some ending => l.leave t (.ended ending)
  | _ => l.put { t with released := true }

/-- An operation has a turn. -/
def turn (l : Lock ι) (owner : ι) : Lock ι :=
  match l.ticket? owner with
  | none => l
  | some t => if l.isPending t then l.proceed t else l

/-- The lock after an event; `name` gives the name under which an operation calls. -/
def step (name : ι → String) (l : Lock ι) (e : Event ι) : Lock ι :=
  match e.act with
  | .call => l.draw e.owner (name e.owner)
  | .finish ending => l.conclude e.owner ending
  | .cancel => l.stop e.owner
  | .turn => l.turn e.owner

/-- The lock after events, from the start. -/
def run (name : ι → String) (es : List (Event ι)) : Lock ι :=
  es.foldl (step name) {}

/-- The lock after everyone has had a turn, the oldest first. -/
def settle (l : Lock ι) : Lock ι :=
  l.tickets.foldr (fun t l => l.turn t.owner) l

/-- A further operation asks for a key. -/
def start (l : Lock ι) (owner : ι) (name : String) : Lock ι :=
  (l.draw owner name).settle

/-- The action of an owner ends, at once or as soon as it is entered. -/
def finish (l : Lock ι) (owner : ι) (ending : Ending) : Lock ι :=
  (l.conclude owner ending).settle

/-- An operation is cancelled, whether it waits or runs. -/
def cancel (l : Lock ι) (owner : ι) : Lock ι :=
  (l.stop owner).settle

/-- Whether an operation on a key would have to wait. -/
def isLocked (l : Lock ι) (name : String) : Bool :=
  !l.isFree (l.tails.get? (keyOf name))

end Lock

end UserScripts
