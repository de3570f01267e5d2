import UserScripts.Edit
import UserScripts.Failure
import UserScripts.Log

/-!
# Routines

An operation is written down as a routine: a tree of queries to its surroundings, each with what comes after any answer to it.
What a query does is not said here, so the same routine can be run alone, beside others or against any wiki. A routine ends with
a value or a failure, and failures can be caught. The main statements are the laws of sequencing.
-/

namespace UserScripts

/-- The two wikis of a session. -/
inductive Site where
  /-- The wiki on which the user works. -/
  | home
  /-- The wiki that holds the global target. -/
  | central
deriving DecidableEq, Repr

/-- What a routine asks of its surroundings. -/
inductive Query where
  /-- The text of a page. -/
  | read (site : Site) (title : String)
  | save (site : Site) (edit : Edit)
  /-- The source of a script on any host. -/
  | lookup (host page : String)
  /-- The text of a target that the cache holds. -/
  | recall (target : String)
  /-- The cache takes the text of a target. -/
  | remember (target text : String)
  /-- The cache drops a target, or all of them. -/
  | forget (target : Option String)
  | note (note : Note)
  /-- Waits until the key is free and holds it from then on. -/
  | acquire (key : String)
  | release (key : String)
deriving DecidableEq, Repr

/-- What a query is answered with. -/
abbrev Query.Answer : Query → Type
  | .read _ _ => Except Failure String
  | .save _ _ => Except Failure Unit
  | .lookup _ _ => Except String String
  | .recall _ => Option String
  | _ => Unit

/-- A tree of queries that ends with a value or a failure. -/
inductive Routine (α : Type) where
  | done (outcome : Except Failure α)
  | ask (query : Query) (next : query.Answer → Routine α)

namespace Routine

variable {α β γ : Type}

/-- The first routine followed by the second, unless the first fails. -/
def bind (r : Routine α) (f : α → Routine β) : Routine β :=
  match r with
  | .done (.ok a) => f a
  | .done (.error e) => .done (.error e)
  | .ask query next => .ask query fun answer => (next answer).bind f

instance : Monad Routine where
  pure a := .done (.ok a)
  bind := bind

/-- The routine with its failure made into a value. -/
def attempt : Routine α → Routine (Except Failure α)
  | .done outcome => .done (.ok outcome)
  | .ask query next => .ask query fun answer => (next answer).attempt

/-- The routine that ends with an outcome at once. -/
def ofExcept (outcome : Except Failure α) : Routine α :=
  .done outcome

/-- The routine that fails. -/
def fail (failure : Failure) : Routine α :=
  .done (.error failure)

/-- A single query. -/
def query (q : Query) : Routine q.Answer :=
  .ask q fun answer => .done (.ok answer)

/-- The routine that makes notes, in order. -/
def notes : List Note → Routine Unit
  | [] => .done (.ok ())
  | n :: rest => .ask (.note n) fun _ => notes rest

/-- Attempts routines one after the other. -/
def attemptAll : List (Routine α) → Routine (List (Except Failure α))
  | [] => pure []
  | r :: rest => do
    let outcome ← r.attempt
    let outcomes ← attemptAll rest
    return outcome :: outcomes

/-- The values of all routines of a list. Every one of them is carried out, and then the first failure counts. -/
def all (routines : List (Routine α)) : Routine (List α) := do
  let outcomes ← attemptAll routines
  ofExcept (outcomes.mapM id)

@[simp]
theorem pure_bind (a : α) (f : α → Routine β) : (pure a : Routine α) >>= f = f a := rfl

@[simp]
theorem done_ok_bind (a : α) (f : α → Routine β) : (Routine.done (.ok a) >>= f) = f a := rfl

@[simp]
theorem done_error_bind (e : Failure) (f : α → Routine β) : (Routine.done (.error e) >>= f) = .done (.error e) := rfl

@[simp]
theorem ask_bind (q : Query) (next : q.Answer → Routine α) (f : α → Routine β) :
    (Routine.ask q next >>= f) = .ask q fun answer => next answer >>= f := rfl

@[simp]
theorem bind_pure (r : Routine α) : (r >>= fun a => pure a) = r := by
  induction r with
  | done outcome => cases outcome <;> rfl
  | ask q next ih => simp only [ask_bind, ih]

theorem bind_assoc (r : Routine α) (f : α → Routine β) (g : β → Routine γ) :
    (r >>= f) >>= g = r >>= fun a => f a >>= g := by
  induction r with
  | done outcome => cases outcome <;> rfl
  | ask q next ih => simp only [ask_bind, ih]

end Routine

end UserScripts
