import Gatehouse.Storage.Tables

/-!
# Storage backends

A backend is opened and closed explicitly, any number of times; while it is closed every other
operation fails. Each operation is one `Call` with a `Reply` of its own type. What is to be done
with a backend, call by call, is a `Script`: it can be run on any backend, and its calls can be
interleaved with those of others.
-/

namespace Gatehouse.Storage

/-- An operation on a backend. -/
inductive Call
  | openStore
  | closeStore
  | put (kind key : String) (v : Value)
  | get (kind key : String)
  | list (kind : String)
  | delete (kind key : String)

/-- What a successful call gives. -/
abbrev Call.Reply : Call → Type
  | openStore => Unit
  | closeStore => Unit
  | put _ _ _ => Unit
  | get _ _ => Value
  | list _ => List String
  | delete _ _ => Unit

/-- How a call ends without success. -/
inductive Failure
  | error (e : Error)
  /-- The backend gave up in the middle of the call. -/
  | panic

/-- What a call ends with. -/
abbrev Result (α : Type) := Except Failure α

/-- A call that fails with an error. -/
def fail {α : Type} (e : Error) : Result α := .error (.error e)

/-- A state on which calls can be made. -/
class Backend (σ : Type) where
  call : (c : Call) → σ → Result c.Reply × σ
  isOpen : σ → Bool

/-- Either of two kinds of backend. -/
instance {σ τ : Type} [Backend σ] [Backend τ] : Backend (σ ⊕ τ) where
  call c
    | .inl s => (Backend.call c s).map id .inl
    | .inr t => (Backend.call c t).map id .inr
  isOpen
    | .inl s => Backend.isOpen s
    | .inr t => Backend.isOpen t

/-- What is to be done with a backend: calls, each followed by what its result asks for, and in the
    end a value, or none if everything was given up. -/
inductive Script (α : Type)
  | done (a : α)
  | panicked
  | ask (c : Call) (next : Result c.Reply → Script α)

namespace Script

variable {α β : Type}

/-- What became of a script. -/
inductive Ending (α : Type)
  | value (a : α)
  | panic

/-- Runs a script on a backend. -/
def run {σ : Type} [Backend σ] : Script α → σ → Ending α × σ
  | done a, s => (.value a, s)
  | panicked, s => (.panic, s)
  | ask c next, s =>
    let (r, s) := Backend.call c s
    run (next r) s

/-- Changes the value that a script ends with. -/
def map (f : α → β) : Script α → Script β
  | done a => done (f a)
  | panicked => panicked
  | ask c next => ask c fun r => map f (next r)

/-- One call and its result. -/
def call (c : Call) : Script (Except Error c.Reply) :=
  ask c fun
    | .ok r => done (.ok r)
    | .error (.error e) => done (.error e)
    | .error .panic => panicked

end Script

end Gatehouse.Storage
