import Gatehouse.SystemError

/-!
# Listening for connections

A service listens at one port, on all interfaces.
-/

namespace Gatehouse

/-- The address at which a service listens. -/
def listenAddress (port : Nat) : String := "0.0.0.0:" ++ toString port

/-- Why nothing can listen at an address. -/
structure ListenError where
  address : String
  cause : SystemError

/-- The wording of an error. -/
def ListenError.message (e : ListenError) : String :=
  "Failed to bind " ++ e.address ++ ": " ++ e.cause.message

end Gatehouse
