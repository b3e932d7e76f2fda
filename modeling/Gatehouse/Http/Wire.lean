import Gatehouse.Http.Message

/-!
# Messages on a connection

The head of a request is a line with method, target and version, and a line for each field; an empty
line ends it. The head of a response is a line with version, status and reason, and a line for each
field.
-/

namespace Gatehouse.Http

/-- The text without blanks and tabs at both ends. -/
def trimBlanks (s : String) : String :=
  let isBlank (c : Char) : Bool := c = ' ' || c = '\t'
  String.ofList ((s.toList.dropWhile isBlank).reverse.dropWhile isBlank).reverse

/-- The name and the value in the line of a field. -/
def fieldOfLine (line : String) : String × List UInt8 :=
  let cs := line.toList
  let value := String.ofList ((cs.dropWhile (· ≠ ':')).drop 1)
  (String.ofList (cs.takeWhile (· ≠ ':')), (trimBlanks value).toUTF8.toList)

/-- The request whose head has these lines. -/
def Request.ofHead (lines : List String) (peer : Option String) (arrival : Nat) :
    Except Malformed Request :=
  match lines with
  | [] => .error .method
  | first :: fields =>
    match first.splitOn " " with
    | [method, target, _] => Request.read method target (fields.map fieldOfLine) peer arrival
    | _ => .error .target

/-- How many bytes of a body follow the head of a request. -/
def Request.bodyLength (r : Request) : Nat :=
  ((r.headers.text? "content-length").bind String.toNat?).getD 0

/-- The reason that is given with a status. -/
def reason : Nat → String
  | 200 => "OK"
  | 204 => "No Content"
  | 400 => "Bad Request"
  | 403 => "Forbidden"
  | 404 => "Not Found"
  | 405 => "Method Not Allowed"
  | 429 => "Too Many Requests"
  | 500 => "Internal Server Error"
  | 503 => "Service Unavailable"
  | _ => ""

/-- The line of a field. -/
def Header.line (h : Header) : String := h.name ++ ": " ++ Text.ofBytesLossy h.value

/-- The response as it is sent. -/
def Response.wire (r : Response) : String :=
  let head := ("HTTP/1.1 " ++ toString r.status ++ " " ++ reason r.status) ::
    r.headers.map Header.line
  String.join (head.map (· ++ "\r\n")) ++ "\r\n" ++ r.body

end Gatehouse.Http
