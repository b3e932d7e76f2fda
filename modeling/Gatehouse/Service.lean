import Gatehouse.Guard.Line
import Gatehouse.Http.RequestId
import Gatehouse.Lifecycle.Procedures
import Gatehouse.Status

/-!
# The service

A service replies with its status behind the guards that its settings ask for. It owns its storage:
it opens it before it serves and closes it in the end.
-/

namespace Gatehouse

open Admission (Desk)
open Storage (Backend Call Script)

/-- What a service keeps while it runs. -/
structure Service (σ : Type) where
  settings : Settings
  desk : Desk Float
  storage : σ

namespace Service

variable {σ : Type} [Backend σ]

/-- A service that nobody has asked anything. -/
def new (settings : Settings) (storage : σ) : Service σ :=
  { settings, desk := Guard.desk settings, storage }

/-- Opens the storage. -/
def acquire : Script (Except Storage.Error Unit) := .call .openStore

/-- Closes the storage. -/
def release : Script (Except Storage.Error Unit) := .call .closeStore

/-- The guards around the status. -/
def handler (settings : Settings) : Http.Handler (Desk Float × σ) :=
  (Guard.line settings).wrap (.behind Status.handler)

/-- Replies to a request, with an identifier for it in case it brings none. -/
def reply (s : Service σ) (fresh : String) (request : Http.Request) :
    Option Http.Response × Service σ :=
  let (response, desk, storage) :=
    (Http.requestId fresh).around (handler s.settings) request (s.desk, s.storage)
  let allowed := Status.allowed request.path request.method
  (response.map (·.deliver request.method allowed), { s with desk, storage })

/-- What a script of storage calls gives to the life of the service. -/
def outcome {σ : Type} (r : Script.Ending (Except Storage.Error Unit) × σ) :
    Option (Except Lifecycle.AppError Unit) × σ :=
  match r with
  | (.panic, s) => (none, s)
  | (.value r, s) => (some (r.mapError .storage), s)

/-- The application of a service: it opens the storage and closes it. -/
def application : Lifecycle.Application σ where
  init s := outcome (acquire.run s)
  cleanUp s := outcome (release.run s)

/-- What the server of a service does by itself: without an identity, where it needs one, it
    fails. -/
def server (s : Settings.Server) (files : FileTree) (folder : Place) : Lifecycle.Server :=
  if s.tlsEnabled then
    match Tls.load files folder s.tlsCert s.tlsKey with
    | .ok _ => .endless
    | .error e => .failed (.tls e)
  else .endless

end Service

end Gatehouse
