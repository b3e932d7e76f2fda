import Gatehouse.Http.Message
import Gatehouse.Text.Quoted

/-!
# Chains of stages

A request passes through stages before it comes to the handler inside. A stage replies itself, or
forwards the request, perhaps a changed one, and may then amend the reply on its way back. Stages
and handlers share a state, so it can be told which of them were asked, and in which order.

* `Stage.around`  one stage around a handler
* `Chain.wrap`    all stages around a handler, the first one outermost
-/

namespace Gatehouse.Http

/-- Replies to a request, or gives up without a reply. -/
abbrev Handler (σ : Type) := Request → σ → Option Response × σ

/-- What a stage does with a request. -/
inductive Decision (σ : Type)
  /-- The stage answers itself. -/
  | reply (r : Response)
  /-- The request goes on inwards, and the reply is amended when it comes back. -/
  | forward (r : Request) (amend : Response → σ → Response × σ)
  /-- The stage gives up. -/
  | abort

/-- A named step on the way of a request. -/
structure Stage (σ : Type) where
  name : String
  decide : Request → σ → Decision σ × σ

namespace Stage

variable {σ : Type}

/-- The stage with a handler inside. -/
def around (t : Stage σ) (inner : Handler σ) : Handler σ := fun request s =>
  match t.decide request s with
  | (.reply response, s) => (some response, s)
  | (.abort, s) => (none, s)
  | (.forward request amend, s) =>
    match inner request s with
    | (none, s) => (none, s)
    | (some response, s) =>
      let (response, s) := amend response s
      (some response, s)

end Stage

/-- Forwards a request and leaves the reply as it is. -/
def Decision.pass {σ : Type} (r : Request) : Decision σ :=
  .forward r fun response s => (response, s)

/-- Stages, outermost first. -/
abbrev Chain (σ : Type) := List (Stage σ)

namespace Chain

variable {σ : Type}

/-- The names of the stages, outermost first. -/
def names (c : Chain σ) : List String := c.map (·.name)

/-- The handler with all stages around it, the first one outermost. -/
def wrap (c : Chain σ) (inner : Handler σ) : Handler σ := c.foldr Stage.around inner

/-- The written form of a chain. -/
def shown (c : Chain σ) : String := Text.quoteList c.names

/-- Without stages the handler stands alone. -/
@[simp] theorem wrap_nil (inner : Handler σ) : wrap [] inner = inner := rfl

/-- The first stage stands around all that the others make of the handler. -/
@[simp] theorem wrap_cons (t : Stage σ) (c : Chain σ) (inner : Handler σ) :
    wrap (t :: c) inner = t.around (wrap c inner) := rfl

end Chain

/-- A handler that leaves a further state alone. -/
def Handler.behind {σ τ : Type} (h : Handler τ) : Handler (σ × τ) := fun request s =>
  let (response, t) := h request s.2
  (response, (s.1, t))

end Gatehouse.Http
