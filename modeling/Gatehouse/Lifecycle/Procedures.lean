import Gatehouse.Lifecycle.Controller

/-!
# From creation to termination

The procedures of a service. Whatever ends a service after it got hold of what it needs leads
through the one cleanup, and termination is published after it.

* `cleanUp`     the cleanup, which runs once whoever asks for it
* `acquire`     gets hold of what the service needs
* `listen`      listens at a port
* `serve`       serves until the shutdown, or until the server ends by itself
* `wholeLife`   all of this in order
-/

namespace Gatehouse.Lifecycle

open Procedure (one)

/-- Has the cleanup run, unless it has; whether it succeeded. -/
def cleanUp : Procedure Bool := do
  match ← one .claim with
  | some succeeded => return succeeded
  | none =>
    let succeeded := match ← one .cleanUp with
      | .ok _ => true
      | .error _ => false
    one (.settle succeeded)
    return succeeded

/-- Shuts down, cleans up and terminates. -/
def terminate : Procedure Exit := do
  one (.publish .shuttingDown)
  let succeeded ← cleanUp
  one (.publish .terminated)
  return .ofCleanUp succeeded

/-- Gets hold of what the service needs; a service that cannot is terminated. -/
def acquire : Procedure (Except Error Unit) := do
  match ← one .init with
  | .ok _ =>
    one (.publish .initialized)
    return .ok ()
  | .error e =>
    one (.publish .terminated)
    return .error (.init e)

/-- Listens at a port, with the outcome of this; a service that cannot is terminated. -/
def listen (port : Nat) (bound : Except SystemError Unit) : Procedure (Except Error Unit) := do
  match bound with
  | .ok _ => return .ok ()
  | .error e =>
    let _ ← terminate
    return .error (.listen ⟨listenAddress port, e⟩)

/-- Serves until the shutdown or until the server ends by itself. -/
def serve (server : Server) : Procedure (Except Error Exit) := do
  one (.publish .serving)
  match ← one (.await server) with
  | none => return .ok (← terminate)
  | some (.ok _) => return .ok (← terminate)
  | some (.error e) =>
    let _ ← terminate
    return .error (.serve e)

/-- Gets hold of what the service needs, listens and serves. -/
def start (port : Nat) (bound : Except SystemError Unit) (server : Server) :
    Procedure (Except Error Exit) := do
  match ← acquire with
  | .error e => return .error e
  | .ok _ =>
    match ← listen port bound with
    | .error e => return .error e
    | .ok _ => serve server

/-- The whole life of a service; in the end the shutdown is triggered in any case. -/
def wholeLife (port : Nat) (bound : Except SystemError Unit) (server : Server) :
    Procedure Exit := do
  let exit := match ← start port bound server with
    | .ok exit => exit
    | .error _ => .failed
  one .trigger
  return exit

end Gatehouse.Lifecycle
