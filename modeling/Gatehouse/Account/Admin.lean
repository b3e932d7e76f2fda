import Gatehouse.Account.Basic
import Gatehouse.Storage.Backend
import Gatehouse.Text.Blank

/-!
# Administration of accounts

Every operation has a session of its own: it opens the backend, makes one call and closes the
backend again, also when the call failed or was given up. A backend that does not open is not
closed. The error of the call counts more than that of closing.
-/

namespace Gatehouse.Account

open Storage (Call Failure Script)

/-- Why an administrative operation failed. -/
inductive AdminError
  /-- No email address was given. -/
  | missingEmail
  | notFound (key : String)
  | storage (e : Storage.Error)

namespace AdminError

/-- The error that a storage error appears as. -/
def ofStorage : Storage.Error → AdminError
  | .notFound _ key => notFound key
  | e => storage e

/-- The wording of an error, unless it lies with a document that cannot be decoded. -/
def message? : AdminError → Option String
  | missingEmail => some "Please provide an email address!"
  | notFound key => some ("Account " ++ Text.quote key ++ " not found")
  | storage e => e.message?.map ("Storage error: " ++ ·)

/-- Whether the mistake is the operator's. -/
def isInputError : AdminError → Bool
  | missingEmail => true
  | _ => false

end AdminError

/-- An outcome of administration. -/
abbrev AdminResult (α : Type) := Except AdminError α

/-- Joins the outcome of the operation in a session with that of closing it. -/
def joinClose {α : Type} (result : AdminResult α) (closed : Storage.Result Unit) :
    Script (AdminResult α) :=
  match closed, result with
  | .error .panic, _ => .panicked
  | _, .error e => .done (.error e)
  | .error (.error e), .ok _ => .done (.error (.ofStorage e))
  | .ok (), .ok a => .done (.ok a)

/-- A session with one call; `read` makes its reply into the value of the session. -/
def session {α : Type} (c : Call) (read : c.Reply → AdminResult α) : Script (AdminResult α) :=
  .ask .openStore fun
    | .error .panic => .panicked
    | .error (.error e) => .done (.error (.ofStorage e))
    | .ok () => .ask c fun
      | .error .panic => .ask .closeStore fun _ => .panicked
      | .error (.error e) => .ask .closeStore (joinClose (.error (.ofStorage e)))
      | .ok reply => .ask .closeStore (joinClose (read reply))

/-- Continues only with an email address that is not blank. -/
def requireEmail {α : Type} (email : String) (s : Script (AdminResult α)) :
    Script (AdminResult α) :=
  if Text.isBlank email then .done (.error .missingEmail) else s

/-- The keys of all accounts; nothing if there are none. -/
def listAll : Script (AdminResult (Option (List String))) :=
  session (.list kind) fun keys => .ok (if keys.isEmpty then none else some keys)

/-- Makes an account, over the one that has the email address. -/
def create (email : String) (now : Nat) : Script (AdminResult Account) :=
  let a := Account.new email now
  requireEmail email (session (.put kind a.key a.toValue) fun _ => .ok a)

/-- The account with an email address. -/
def display (email : String) : Script (AdminResult Account) :=
  requireEmail email (session (.get kind email) fun v =>
    (ofValue v).mapError fun m => .storage (.illTyped m))

/-- Deletes the account with an email address. -/
def delete (email : String) : Script (AdminResult Unit) :=
  requireEmail email (session (.delete kind email) fun _ => .ok ())

end Gatehouse.Account
