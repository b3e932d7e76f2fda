import Gatehouse.Decode
import Gatehouse.Json.Reader
import Gatehouse.SystemError

/-!
# What can go wrong with storage
-/

namespace Gatehouse.Storage

/-- Why a storage operation failed. -/
inductive Error
  | notOpen
  | alreadyOpen
  /-- No record of the kind has the key. -/
  | notFound (kind key : String)
  | system (e : SystemError)
  /-- The stored document cannot be read from its file. -/
  | unreadable (e : SystemError)
  /-- The stored document is not what a document must be. -/
  | undecodable (fault : Json.Fault)
  /-- A record is not of the type asked for. -/
  | illTyped (m : Mismatch)

/-- The wording of an error. A document that cannot be decoded has none of its own. -/
def Error.message? : Error → Option String
  | notOpen => some "storage is not open"
  | alreadyOpen => some "storage is already open"
  | notFound kind key => some (kind ++ " " ++ Text.quote key ++ " not found")
  | system e => some ("IO error: " ++ e.message)
  | unreadable e => some ("Serialization error: " ++ e.message)
  | undecodable _ => none
  | illTyped m => some ("Serialization error: " ++ m.message)

/-- Whether an error says that a record is missing. -/
def Error.isNotFound : Error → Bool
  | notFound _ _ => true
  | _ => false

end Gatehouse.Storage
