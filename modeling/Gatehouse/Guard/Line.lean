import Gatehouse.Guard.CrossOrigin
import Gatehouse.Guard.Plaintext
import Gatehouse.Guard.Throttle
import Gatehouse.Settings.Basic

/-!
# The guards of a service

Settings say which guards stand in line. Permission for other origins is always outermost, so every
refusal carries it; plaintext is refused only where encryption is required and ends at a proxy; the
desk comes last, so a request that is refused in front of it costs no token.
-/

namespace Gatehouse.Guard

open Admission (Desk TokenArith)
open Http (Chain)

variable {α τ : Type} [TokenArith α]

/-- Whether plaintext has to be refused by what the proxy says. -/
def refusesPlaintext (s : Settings) : Bool := s.server.requireTls && !s.server.tlsEnabled

/-- The guards that settings ask for, outermost first. -/
def line (s : Settings) : Chain (Desk α × τ) :=
  [crossOrigin] ++ (if refusesPlaintext s then [requireTls] else [])
    ++ (if s.admission.enabled then [throttle] else [])

/-- A desk with the quotas of settings that nobody has come to. -/
def desk (s : Settings) : Desk α := .ofTable (.ofSettings s.admission.quotas)

end Gatehouse.Guard
