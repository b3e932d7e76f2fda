import Gatehouse.Http.Chain

/-!
# Request identifiers

A request has an identifier, the first that it brought or a fresh one, and its reply carries the
same unless it has one of its own.
-/

namespace Gatehouse.Http

/-- The name of the field with the identifier. -/
def requestIdName : String := "x-request-id"

/-- The stage that identifies a request, with the identifier for one that brings none. -/
def requestId {σ : Type} (fresh : String) : Stage σ where
  name := "request-id"
  decide request s :=
    let id := (request.headers.first? requestIdName).getD (.ofText requestIdName fresh)
    (.forward { request with headers := request.headers.offer id } fun response s =>
      ({ response with headers := response.headers.offer id }, s), s)

/-- The hexadecimal digits of bytes. -/
def hexText (bs : List UInt8) : String :=
  String.ofList (bs.flatMap fun b => [Nat.digitChar (b.toNat / 16), Nat.digitChar (b.toNat % 16)])

/-- A fresh identifier made of sixteen random bytes, in groups and marked as random. -/
def freshId (random : List UInt8) : String :=
  let marked := random.mapIdx fun i b =>
    if i = 6 then b % 16 + 64 else if i = 8 then b % 64 + 128 else b
  "-".intercalate ([(0, 4), (4, 2), (6, 2), (8, 2), (10, 6)].map fun (start, length) =>
    hexText ((marked.drop start).take length))

end Gatehouse.Http
