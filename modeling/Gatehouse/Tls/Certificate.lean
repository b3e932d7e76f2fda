import Gatehouse.Tls.Der

/-!
# Certificates

A certificate of the third version tells who it is about and the public key of that party. It is
read only as far as that: neither its signature nor its dates are judged. Of its extensions some are
understood; one that is not understood may not be critical.

* `Certificate.ofBytes?`  the certificate in some bytes
-/

namespace Gatehouse.Tls

open Der (Reader)
open Der.Reader (byte element inside many natural optional require rest)

/-- An addition to a certificate. -/
structure Extension where
  name : List UInt8
  /-- Whether the certificate is of no use to someone who does not understand the addition. -/
  critical : Bool
  value : List UInt8
deriving DecidableEq

namespace Extension

/-- Reads a truth value. -/
def flag : Reader Bool :=
  inside Der.booleanTag do
    let b ← byte
    require (b = 0x00 || b = 0xff)
    return b = 0xff

/-- Reads an extension. -/
def reader : Reader Extension :=
  inside Der.sequenceTag do
    let name ← element Der.nameTag
    let critical ← optional Der.booleanTag flag
    let value ← element Der.bytesTag
    return { name, critical := critical.getD false, value }

/-- The name of the extension on what a key may be used for. -/
def keyUsage : List UInt8 := [0x55, 0x1d, 15]

/-- The names of the extensions that are understood: on the use of the key, on other names of the
    party, on whether it certifies others, on the names that it may certify, on revocations, and on
    the purposes of the key. -/
def understood : List (List UInt8) :=
  [keyUsage, [0x55, 0x1d, 17], [0x55, 0x1d, 19], [0x55, 0x1d, 30], [0x55, 0x1d, 31], [0x55, 0x1d, 37]]

/-- Whether the extension is understood. -/
def isUnderstood (e : Extension) : Bool := understood.contains e.name

/-- Whether the extension does no harm: its value is one sequence if it is understood, where the use
    of the key may be anything, and it is not critical if it is not. -/
def isHarmless (e : Extension) : Bool :=
  if e.isUnderstood then
    e.name = keyUsage || ((element Der.sequenceTag).whole? e.value).isSome
  else !e.critical

end Extension

/-- What a certificate tells. -/
structure Certificate where
  serial : List UInt8
  issuer : List UInt8
  validity : List UInt8
  subject : List UInt8
  /-- What is told about the public key of the subject. -/
  key : List UInt8
  extensions : List Extension

namespace Certificate

/-- The contents of a certificate are shorter than this. -/
def lengthBound : Nat := 0xffff

/-- Reads what is signed, given how it is signed. -/
def contentReader (signing : List UInt8) : Reader Certificate := do
  let version ← inside (Der.partTag 0) natural
  require (version = 2)
  let serial ← element Der.integerTag
  let algorithm ← element Der.sequenceTag
  require (algorithm = signing)
  let issuer ← element Der.sequenceTag
  let validity ← element Der.sequenceTag
  let subject ← element Der.sequenceTag
  let key ← element Der.sequenceTag
  let extensions ← optional (Der.partTag 3)
    (inside (Der.partTag 3) (inside Der.sequenceTag (many Extension.reader)))
  return { serial, issuer, validity, subject, key, extensions := extensions.getD [] }

/-- Whether the extensions do no harm, and none that is understood comes twice. -/
def isAcceptable (c : Certificate) : Bool :=
  let names := (c.extensions.filter (·.isUnderstood)).map (·.name)
  c.extensions.all (·.isHarmless) && names.eraseDups = names

/-- Reads a certificate. -/
def reader : Reader Certificate :=
  inside Der.sequenceTag do
    let content ← element Der.sequenceTag
    let signing ← element Der.sequenceTag
    let _signature ← Reader.bits
    let c ← Reader.ofOption ((contentReader signing).whole? content)
    require c.isAcceptable
    return c

/-- The certificate in some bytes. -/
def ofBytes? (bytes : List UInt8) : Option Certificate :=
  match (element Der.sequenceTag).whole? bytes with
  | some body => if body.length < lengthBound then reader.whole? bytes else none
  | none => none

end Certificate

end Gatehouse.Tls
