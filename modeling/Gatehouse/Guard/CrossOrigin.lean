import Gatehouse.Http.Chain

/-!
# Permission for other origins

Every reply lets pages of any origin read it, with one value for each of three fields in place of
any that was there. A request with the method OPTIONS asks for no more than that and is answered at
once.
-/

namespace Gatehouse.Guard

open Http (Header Headers Response Stage)

/-- The fields that grant permission. -/
def permissions : List Header := [
  .ofText "access-control-allow-origin" "*",
  .ofText "access-control-allow-methods" "GET, POST, PUT, DELETE, OPTIONS",
  .ofText "access-control-allow-headers"
    "Origin, X-Requested-With, Content-Type, Accept, Authorization, X-Request-Id"]

/-- The fields with the permission in place of any other. -/
def permit (hs : Headers) : Headers := permissions.foldl Headers.set hs

/-- The reply with the permission. -/
def permitted (r : Response) : Response := { r with headers := permit r.headers }

/-- The stage that grants permission. -/
def crossOrigin {σ : Type} : Stage σ where
  name := "cors"
  decide request s :=
    if request.method = .options then (.reply (permitted (.bare 204)), s)
    else (.forward request fun response s => (permitted response, s), s)

end Gatehouse.Guard
