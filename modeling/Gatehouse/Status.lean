import Gatehouse.Http.Chain
import Gatehouse.Json.Printer
import Gatehouse.Storage.Backend

/-!
# Status of the service

The service itself tells at two paths how it is and which version it has. There GET and HEAD are
allowed and nothing else; every other path is not found, with any method.
-/

namespace Gatehouse.Status

open Http (Handler Method Request Response)
open Storage (Backend)

/-- The version of the service. -/
def version : String := "0.1.0"

/-- How the service is: it works as long as its storage is open. -/
def health (isOpen : Bool) : Response :=
  .json (if isOpen then 200 else 503) <| Json.compact <| .object [
    ("version", .text version),
    ("status", .text (if isOpen then "operational" else "degraded")),
    ("storage_open", .bool isOpen)]

/-- Which version the service has. -/
def versionInfo : Response := .json 200 (Json.compact (.object [("version", .text version)]))

/-- Tells that there is nothing at a path. -/
def notFound (path : String) : Response :=
  .json 404 (Json.compact (.object [("error", .text "not_found"), ("path", .text path)]))

/-- The paths where only GET and HEAD are allowed. -/
def paths : List String := ["/health", "/version"]

/-- The methods that a path allows, if the request has none of them. -/
def allowed (path : String) (method : Method) : Option String :=
  if paths.contains path && method ≠ .get && method ≠ .head then some "GET,HEAD" else none

/-- Replies from the state of the storage. -/
def handler {σ : Type} [Backend σ] : Handler σ := fun request s =>
  let response :=
    if (allowed request.path request.method).isSome then .bare 405
    else if request.path = "/health" then health (Backend.isOpen s)
    else if request.path = "/version" then versionInfo
    else notFound request.path
  (some response, s)

end Gatehouse.Status
