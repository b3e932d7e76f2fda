import Gatehouse.Http.Chain

/-!
# Refusal of plaintext

Where encryption is required and ends at a proxy in front, the proxy says how a request came to it.
A request that did not come encrypted is refused; only what the first field says counts.
-/

namespace Gatehouse.Guard

open Http (Request Response Stage)

/-- Whether the proxy says that a request came encrypted. -/
def cameEncrypted (r : Request) : Bool :=
  ((r.headers.text? "x-forwarded-proto").map String.toLower) == some "https"

/-- The stage that refuses plaintext. -/
def requireTls {σ : Type} : Stage σ where
  name := "require-tls"
  decide request s :=
    if cameEncrypted request then (.pass request, s)
    else (.reply (.plain 403 "Insecure connections are not allowed"), s)

end Gatehouse.Guard
