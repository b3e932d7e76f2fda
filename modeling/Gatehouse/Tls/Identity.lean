import Gatehouse.FileTree
import Gatehouse.Tls.Certificate
import Gatehouse.Tls.Pem
import Gatehouse.Tls.PrivateKey

/-!
# The identity of a server

A server proves who it is by a certificate and the private key to it, each in a file of armoured
text. The first certificate is the server's own. There has to be exactly one private key, and its
public half has to be the one in the certificate, to the byte.

* `Identity.ofTexts?`  the identity in the texts of two files
* `load`               the identity in two files
-/

namespace Gatehouse.Tls

/-- Who a server is. -/
structure Identity where
  certificates : List (List UInt8)
  key : PublicKey

namespace Identity

/-- The certificates in a text, if no section of it is malformed. -/
def certificates? (text : List UInt8) : Option (List (List UInt8)) :=
  ((Pem.sections text).mapM id).map fun ss => (ss.filter (·.label = .certificate)).map (·.body)

/-- The private keys in a text; malformed sections do not count. -/
def privateKeys (text : List UInt8) : List (List UInt8) :=
  (((Pem.sections text).filterMap id).filter (·.label.isPrivateKey)).map (·.body)

/-- The identity in the texts of a certificate and of a key. -/
def ofTexts? (certificate key : List UInt8) : Option Identity := do
  let certificates ← certificates? certificate
  let [secret] := privateKeys key | none
  let key ← PrivateKey.publicKey? secret
  let own ← Certificate.ofBytes? (← certificates.head?)
  if own.key = key.info then some ⟨certificates, key⟩ else none

end Identity

/-- What a file was to hold. -/
inductive Role
  | certificate
  | key
deriving DecidableEq

/-- The wording of a role. -/
def Role.text : Role → String
  | certificate => "Certificate"
  | key => "Private key"

/-- Why there is no identity. -/
inductive Error
  | missing (role : Role) (path : String)
  | invalid
deriving DecidableEq

/-- The wording of an error; what is wrong with the contents is not told. -/
def Error.message? : Error → Option String
  | missing role path => some (role.text ++ " file not found: " ++ path)
  | invalid => none

/-- The identity in two files, whose paths are seen from a folder. -/
def load (t : FileTree) (folder : Place) (certificate key : String) : Except Error Identity :=
  let certificatePath := Path.ofText folder certificate
  let keyPath := Path.ofText folder key
  if !t.isFile certificatePath then .error (.missing .certificate certificate)
  else if !t.isFile keyPath then .error (.missing .key key)
  else
    match t.read certificatePath, t.read keyPath with
    | .ok c, .ok k =>
      match Identity.ofTexts? c k with
      | some i => .ok i
      | none => .error .invalid
    | _, _ => .error .invalid

end Gatehouse.Tls
