import Gatehouse.Http.Address
import Gatehouse.Http.Header
import Gatehouse.Http.Method
import Gatehouse.Http.Target

/-!
# Requests and responses

A request is read from a method, a target, header fields and a peer, in this order: the first part
that cannot be read is what is wrong with it. A response gets the fields that every reply carries
when it is delivered.
-/

namespace Gatehouse.Http

/-- What is asked for, by whom, and what the clock read then. -/
structure Request where
  method : Method
  path : String
  headers : Headers
  peer : Option Address
  arrival : Nat

/-- What is replied. -/
structure Response where
  status : Nat
  headers : Headers
  body : String
deriving DecidableEq

/-- Why something is no request. -/
inductive Malformed
  | method
  | target
  | headerName
  | headerValue
  | peer
deriving DecidableEq

/-- The field with a name and a value. -/
def Header.read (name : String) (value : List UInt8) : Except Malformed Header :=
  match fieldName? name with
  | none => .error .headerName
  | some name => if value.all isValueByte then .ok ⟨name, value⟩ else .error .headerValue

/-- Reads fields one after the other. -/
def Headers.read (fields : List (String × List UInt8)) : Except Malformed Headers :=
  fields.mapM fun f => Header.read f.1 f.2

/-- The value, if there is one. -/
def orElseMalformed {α : Type} (why : Malformed) : Option α → Except Malformed α
  | some a => .ok a
  | none => .error why

namespace Request

/-- Reads the parts of a request that comes at a moment. -/
def read (method target : String) (fields : List (String × List UInt8)) (peer : Option String)
    (arrival : Nat) : Except Malformed Request := do
  let method ← orElseMalformed .method (Method.ofString? method)
  let path ← orElseMalformed .target (Target.path? target)
  let headers ← Headers.read fields
  let peer ← match peer with
    | none => .ok none
    | some p => (orElseMalformed .peer (Address.ofPeer? p)).map some
  return ⟨method, path, headers, peer, arrival⟩

end Request

namespace Response

/-- A reply without a body. -/
def bare (status : Nat) : Response := ⟨status, [], ""⟩

/-- A reply whose body is plain text. -/
def plain (status : Nat) (body : String) : Response :=
  ⟨status, [.ofText "content-type" "text/plain; charset=utf-8"], body⟩

/-- A reply whose body is a JSON text. -/
def json (status : Nat) (body : String) : Response :=
  ⟨status, [.ofText "content-type" "application/json"], body⟩

/-- Whether the status tells of success. -/
def succeeds (r : Response) : Bool := 200 ≤ r.status && r.status < 300

/-- The response as it is sent in reply to a method. `allowed` are the methods of the place that was
    asked for, if it has only some and the method is none of them. The length of the body is told
    unless the response tells one. A reply to HEAD keeps its fields and loses its body; a tunnel
    that was opened has neither. -/
def deliver (r : Response) (method : Method) (allowed : Option String) : Response :=
  if method = .connect && r.succeeds then { r with body := "" }
  else
    let headers := match allowed with
      | some methods => r.headers.offer (.ofText "allow" methods)
      | none => r.headers
    let headers := headers.offer (.ofText "content-length" (toString r.body.utf8ByteSize))
    ⟨r.status, headers, if method = .head then "" else r.body⟩

end Response

end Gatehouse.Http
