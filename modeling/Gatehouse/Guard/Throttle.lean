import Gatehouse.Admission.Metrics
import Gatehouse.Http.Chain

/-!
# Refusal of too many requests

The desk decides about each request of a client, and a client whose bucket is empty is told in how
many whole seconds, at least one, it may come again. A client is known by the address of its peer;
all those without one are one client.
-/

namespace Gatehouse.Guard

open Admission (Desk TokenArith)
open Http (Request Response Stage)

/-- The name under which the desk knows who sent a request. -/
def clientOf (r : Request) : String :=
  match r.peer with
  | some address => address.text
  | none => "unknown"

/-- The whole seconds that a client is told to wait. -/
def retryAfter (α : Type) [TokenArith α] (wait : Nat) : Nat :=
  max 1 (TokenArith.ceil (TokenArith.seconds wait : α))

/-- The reply to a client that has to wait. -/
def rejection (α : Type) [TokenArith α] (wait : Nat) : Response :=
  let r := Response.plain 429 "Rate limit exceeded"
  { r with headers := r.headers.set (.ofText "retry-after" (toString (retryAfter α wait))) }

/-- The stage that asks the desk. -/
def throttle {α τ : Type} [TokenArith α] : Stage (Desk α × τ) where
  name := "admission"
  decide request s :=
    let (verdict, desk) := s.1.check (clientOf request) request.method request.path request.arrival
    let s := (desk, s.2)
    match verdict with
    | .unlimited => (.pass request, s)
    | .admitted => (.pass request, s)
    | .rejected _ wait => (.reply (rejection α wait), s)
    | .unrepresentable _ => (.abort, s)

end Gatehouse.Guard
