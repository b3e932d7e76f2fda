import Gatehouse.Decode
import Gatehouse.Json.Printer
import Gatehouse.Json.Reader
import Gatehouse.SortedMap

/-!
# Accounts

An account is known by its email address, which is also its key. It has a time of creation and any
other fields, which are carried along untouched.

* `ofValue`   the account that a value describes: an object with an email address
* `toValue`   the value that an account is stored as; a field of the same name as one of the
  account's own takes its place
* `render`    the account as text for people; here such a field is written too
-/

namespace Gatehouse

/-- An account. -/
structure Account where
  email : String
  /-- When the account was made, in seconds. -/
  created : Nat
  extra : SortedMap Value

namespace Account

/-- The kind that accounts are stored under. -/
def kind : String := "account"

/-- The key that an account is stored under. -/
def key (a : Account) : String := a.email

/-- A new account without further fields. -/
def new (email : String) (now : Nat) : Account := ⟨email, now, .empty⟩

/-- An account whose fields have not all been seen. -/
structure Draft where
  email : Option String := none
  created : Option Nat := none
  extra : SortedMap Value := .empty

/-- The account, if it has an email address; a time of creation that is missing is zero. -/
def Draft.finish (d : Draft) : Except Mismatch Account :=
  match d.email with
  | some email => .ok ⟨email, d.created.getD 0, d.extra⟩
  | none => .error (.missing "email")

/-- Adds a field. -/
def Draft.add (d : Draft) (name : String) (v : Value) : Except Mismatch Draft :=
  if name = "email" then do return { d with email := some (← Decode.text v) }
  else if name = "created" then do return { d with created := some (← Decode.unsigned 64 v) }
  else .ok { d with extra := d.extra.insert name v }

/-- The account that a value describes. -/
def ofValue : Value → Except Mismatch Account
  | .object fields => do (← fields.foldlM (fun d f => d.add f.1 f.2) ({} : Draft)).finish
  | v => .error (.kind v "struct Account")

/-- Reads a field whose name has been read. The fields of the account itself must not be
    repeated. -/
def readField (depth : Nat) (d : Draft) (name : String) : Json.Parser Draft := fun s => do
  if name = "email" then
    if d.email.isSome then throw .mismatched
    let (email, s) ← Json.text (← Json.colon s)
    return ({ d with email := some email }, s)
  else if name = "created" then
    if d.created.isSome then throw .mismatched
    let (created, s) ← Json.unsigned (← Json.colon s)
    return ({ d with created := some created }, s)
  else
    let (v, s) ← Json.value depth (← Json.colon s)
    return ({ d with extra := d.extra.insert name v }, s)

/-- Reads an account. -/
def parser : Json.Parser Account := fun s => do
  let (d, s) ← Json.object Json.maxDepth ({} : Draft) readField s
  match d.finish with
  | .ok a => return (a, s)
  | .error _ => throw .mismatched

/-- The account that a JSON text describes. -/
def ofText (s : String) : Except Json.Fault Account := Json.whole parser s.toUTF8.toList

/-- The fields an account is stored as. -/
def fields (a : Account) : SortedMap Value :=
  a.extra.entries.foldl (fun m e => m.insert e.1 e.2)
    ((SortedMap.empty.insert "created" (.int a.created)).insert "email" (.text a.email))

/-- The value an account is stored as. -/
def toValue (a : Account) : Value := .object a.fields.entries

/-- The account as text for people. -/
def render (a : Account) : String :=
  Json.pretty (.object
    (("email", .text a.email) :: ("created", .int a.created) :: a.extra.entries))

end Account

end Gatehouse
