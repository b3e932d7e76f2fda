import Gatehouse.Storage.Backend

/-!
# Backends under watch

A watched backend counts how often it is opened and closed, and can be told to fail: when it is to
be opened, before the call reaches the backend behind; when it is closed, after the backend behind
has been closed; and on any call for data, with an error or by giving up.
-/

namespace Gatehouse.Storage

/-- Something a watched backend is told to do wrong; a call for data is named. -/
inductive Fault
  | onOpen
  | onClose
  | onCall (name : String)
  | panicOn (name : String)
deriving DecidableEq

/-- The name of a call for data. -/
def Call.name? : Call → Option String
  | openStore => none
  | closeStore => none
  | put _ _ _ => some "put"
  | get _ _ => some "get"
  | list _ => some "list"
  | delete _ _ => some "delete"

/-- A backend with its counts and orders. -/
structure Watched (σ : Type) where
  behind : σ
  opens : Nat := 0
  closes : Nat := 0
  faults : List Fault := []

namespace Watched

variable {σ : Type} [Backend σ]

/-- Passes a call on. -/
def pass (c : Call) (w : Watched σ) : Result c.Reply × Watched σ :=
  let (r, s) := Backend.call c w.behind
  (r, { w with behind := s })

/-- The error of a call that was told to fail. -/
def ordered {α : Type} (name : String) : Result α := fail (.system (.other (name ++ " failed")))

/-- Makes a call. -/
def call (c : Call) (w : Watched σ) : Result c.Reply × Watched σ :=
  match c with
  | .openStore =>
    let w := { w with opens := w.opens + 1 }
    if .onOpen ∈ w.faults then (ordered "open", w) else w.pass .openStore
  | .closeStore =>
    let (r, w) := { w with closes := w.closes + 1 }.pass .closeStore
    match r with
    | .ok () => if .onClose ∈ w.faults then (ordered "close", w) else (.ok (), w)
    | .error e => (.error e, w)
  | c =>
    match c.name? with
    | none => w.pass c
    | some name =>
      if .panicOn name ∈ w.faults then (.error .panic, w)
      else if .onCall name ∈ w.faults then (ordered name, w)
      else w.pass c

instance : Backend (Watched σ) := ⟨call, fun w => Backend.isOpen w.behind⟩

end Watched

end Gatehouse.Storage
