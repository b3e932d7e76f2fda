import Gatehouse.Listening
import Gatehouse.Storage.Error
import Gatehouse.Tls.Identity

/-!
# The life of a service

A service is created, gets hold of what it needs, serves, shuts down and is terminated. What can go
wrong on the way has its own errors, and the end is either clean or failed.
-/

namespace Gatehouse.Lifecycle

/-- Where a service is in its life. -/
inductive Phase
  | created
  | initialized
  | serving
  | shuttingDown
  | terminated
deriving DecidableEq

/-- How the service ended. -/
inductive Exit
  | clean
  | failed
deriving DecidableEq

/-- The code that the program ends with. -/
def Exit.code : Exit → Nat
  | clean => 0
  | failed => 1

/-- The end after a cleanup that succeeded or not. -/
def Exit.ofCleanUp (succeeded : Bool) : Exit := if succeeded then .clean else .failed

/-- What an application fails with. -/
inductive AppError
  | storage (e : Storage.Error)
  | other (text : String)

/-- The wording of an error of an application, where it has one. -/
def AppError.message? : AppError → Option String
  | storage e => e.message?.map ("Storage error: " ++ ·)
  | other text => some text

/-- What a server fails with. -/
inductive ServerError
  | tls (e : Tls.Error)
  | system (e : SystemError)

/-- The wording of an error of a server, where it has one. -/
def ServerError.message? : ServerError → Option String
  | tls e => e.message?.map ("TLS configuration error: " ++ ·)
  | system e => some ("IO error: " ++ e.message)

/-- What a server does by itself. -/
inductive Server
  /-- It serves until the shutdown. -/
  | endless
  /-- It ends without an error. -/
  | ended
  | failed (e : ServerError)

/-- How a server ends by itself, if it does. -/
def Server.end? : Server → Option (Except ServerError Unit)
  | endless => none
  | ended => some (.ok ())
  | failed e => some (.error e)

/-- Why a service did not come to a proper end. -/
inductive Error
  | init (e : AppError)
  | listen (e : ListenError)
  | serve (e : ServerError)

/-- The wording of an error, where it has one. -/
def Error.message? : Error → Option String
  | init e => e.message?.map ("Initialization failed: " ++ ·)
  | listen e => some e.message
  | serve e => e.message?.map ("Server failed: " ++ ·)

end Gatehouse.Lifecycle
