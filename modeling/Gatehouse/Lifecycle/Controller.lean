import Gatehouse.Lifecycle.Basic

/-!
# Controllers and what is done with them

A controller keeps which phases were published, how far the one cleanup is, and whether the shutdown
was triggered. Many parties may use it at once. What a party does is a `Procedure`: a sequence of
actions, each of them atomic. An action may have to wait, for the shutdown or for a cleanup that
another party runs; then the rest of the procedure can be taken up later, after other parties have
acted.

* `perform`        one action
* `Procedure.run`  a procedure as far as it comes by itself
-/

namespace Gatehouse.Lifecycle

/-- What a service runs: it acquires what it needs and releases it again. An application that gives
    up in the middle replies with nothing. -/
structure Application (σ : Type) where
  init : σ → Option (Except AppError Unit) × σ
  cleanUp : σ → Option (Except AppError Unit) × σ

/-- How far the cleanup is. -/
inductive CleanUp
  | pending
  | running
  | finished (succeeded : Bool)
deriving DecidableEq

/-- The state that all parties share. -/
structure Controller where
  /-- The phases after the first one, in the order in which they were published. -/
  published : List Phase := []
  cleanUp : CleanUp := .pending
  triggered : Bool := false
deriving DecidableEq

/-- The phase that was published last. -/
def Controller.phase (c : Controller) : Phase := c.published.getLast?.getD .created

/-! ## Actions -/

/-- One atomic step of a party. -/
inductive Action
  /-- Lets the application acquire what it needs. -/
  | init
  /-- Asks for the outcome of the cleanup; the first who asks has to run it, and whoever asks while
      it runs waits for it. -/
  | claim
  /-- Lets the application release what it holds. -/
  | cleanUp
  /-- Notes the outcome of the cleanup. -/
  | settle (succeeded : Bool)
  | publish (p : Phase)
  /-- Waits for the shutdown or for the end of a server, whichever comes first. -/
  | await (server : Server)
  | trigger

/-- What an action gives. -/
abbrev Action.Reply : Action → Type
  | init => Except AppError Unit
  | claim => Option Bool
  | cleanUp => Except AppError Unit
  | settle _ => Unit
  | publish _ => Unit
  | await _ => Option (Except ServerError Unit)
  | trigger => Unit

/-- What became of an action. -/
inductive Outcome (α : Type)
  | reply (a : α)
  | wait
  | gaveUp

/-- Performs an action. Where both the shutdown and the end of a server have come, the latter is
    taken. -/
def perform {σ : Type} (app : Application σ) :
    (a : Action) → Controller × σ → Outcome a.Reply × (Controller × σ)
  | .init, (c, s) =>
    match app.init s with
    | (some r, s) => (.reply r, (c, s))
    | (none, s) => (.gaveUp, (c, s))
  | .claim, (c, s) =>
    match c.cleanUp with
    | .pending => (.reply none, ({ c with cleanUp := .running }, s))
    | .running => (.wait, (c, s))
    | .finished b => (.reply (some b), (c, s))
  | .cleanUp, (c, s) =>
    match app.cleanUp s with
    | (some r, s) => (.reply r, (c, s))
    | (none, s) => (.gaveUp, ({ c with cleanUp := .pending }, s))
  | .settle b, (c, s) => (.reply (), ({ c with cleanUp := .finished b }, s))
  | .publish p, (c, s) => (.reply (), ({ c with published := c.published ++ [p] }, s))
  | .await server, (c, s) =>
    match server.end? with
    | some r => (.reply (some r), (c, s))
    | none => (if c.triggered then .reply none else .wait, (c, s))
  | .trigger, (c, s) => (.reply (), ({ c with triggered := true }, s))

/-! ## Procedures -/

/-- Actions, each followed by what its reply asks for, and a value in the end. -/
inductive Procedure (α : Type)
  | done (a : α)
  | act (a : Action) (next : a.Reply → Procedure α)

namespace Procedure

variable {α β σ : Type}

/-- One procedure, and then the one that its value asks for. -/
def bind (t : Procedure α) (f : α → Procedure β) : Procedure β :=
  match t with
  | done a => f a
  | act a next => act a fun r => bind (next r) f

instance : Monad Procedure where
  pure := done
  bind := bind

/-- One action and its reply. -/
def one (a : Action) : Procedure a.Reply := act a done

/-- How far a procedure came. -/
inductive Progress (α : Type)
  | finished (a : α)
  /-- An action has to wait; this is the rest of the procedure. -/
  | waiting (rest : Procedure α)
  | gaveUp

/-- Performs the actions of a procedure until one has to wait. -/
def run (app : Application σ) : Procedure α → Controller × σ → Progress α × (Controller × σ)
  | done a, s => (.finished a, s)
  | act a next, s =>
    match perform app a s with
    | (.reply r, s) => run app (next r) s
    | (.wait, s) => (.waiting (act a next), s)
    | (.gaveUp, s) => (.gaveUp, s)

end Procedure

end Gatehouse.Lifecycle
