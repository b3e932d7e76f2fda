import Gatehouse.Tls.Edwards
import Gatehouse.Tls.PublicKey

/-!
# Private keys

A private key comes with a word on its kind or as the bare key of one kind; its first bytes tell
which. It is good only if its numbers fit together: for a modular key the modulus is the product of
two factors and the exponents undo each other, and for a key on a curve a public half that comes
along is the right multiple of the base point. What follows a key is not looked at.

* `ModularKey.isSound`     whether the numbers of a modular key fit together
* `PrivateKey.publicKey?`  the public half of the private key in some bytes
-/

namespace Gatehouse.Tls

open Der (Reader)
open Der.Reader (element inside natural ofOption optional require rest)

/-! ## Modular keys -/

/-- A modular private key. -/
structure ModularKey where
  modulus : Nat
  exponent : Nat
  secret : Nat
  first : Nat
  second : Nat
  /-- What undoes the exponent up to the first factor less one. -/
  firstSecret : Nat
  /-- What undoes the exponent up to the second factor less one. -/
  secondSecret : Nat
  /-- What undoes the second factor up to the first. -/
  coefficient : Nat

namespace ModularKey

/-- Whether a number is reduced and undoes another up to a modulus. -/
def undoes (m a inverse : Nat) : Bool := inverse < m && a * inverse % m = 1

/-- Whether the public half is within bounds. -/
def isBounded (k : ModularKey) : Bool :=
  let bits := Octets.bitLength k.modulus
  let exponentBits := Octets.bitLength k.exponent
  2048 ≤ bits && bits ≤ 8192 && k.modulus % 2 = 1
    && 2 ≤ exponentBits && exponentBits ≤ 33 && k.exponent % 2 = 1

/-- Whether the numbers fit together. The secret exponent need not be reduced. -/
def isSound (k : ModularKey) : Bool :=
  let m := k.first - 1
  let n := k.second - 1
  k.isBounded && k.first < k.modulus && k.second < k.modulus && k.first * k.second = k.modulus
    && k.secret < k.modulus && k.secret * k.exponent % m = 1 && k.secret * k.exponent % n = 1
    && undoes m k.exponent k.firstSecret && undoes n k.exponent k.secondSecret
    && undoes k.first k.second k.coefficient

/-- Reads a key whose numbers fit together. -/
def reader : Reader ModularKey :=
  inside Der.sequenceTag do
    let version ← natural
    require (version = 0)
    let modulus ← natural
    let exponent ← natural
    let secret ← natural
    let first ← natural
    let second ← natural
    let firstSecret ← natural
    let secondSecret ← natural
    let coefficient ← natural
    let k : ModularKey :=
      { modulus, exponent, secret, first, second, firstSecret, secondSecret, coefficient }
    require k.isSound
    return k

/-- The public half. -/
def publicKey (k : ModularKey) : PublicKey := .modular k.modulus k.exponent

end ModularKey

/-! ## Keys on curves -/

namespace Curve

/-- What names the numbers up to a prime. -/
def primeField : List UInt8 := [0x2a, 0x86, 0x48, 0xce, 0x3d, 0x01, 0x01]

/-- Reads a curve that is told by its equation, its base point and its order. -/
def equationReader : Reader Curve :=
  inside Der.sequenceTag do
    let version ← natural
    require (version = 1)
    let prime ← inside Der.sequenceTag do
      let field ← element Der.nameTag
      require (field = primeField)
      natural
    let (a, b) ← inside Der.sequenceTag do
      let a ← element Der.bytesTag
      let b ← element Der.bytesTag
      let _seed ← optional Der.bitsTag (element Der.bitsTag)
      return (Octets.number a, Octets.number b)
    let base ← element Der.bytesTag
    let order ← natural
    let cofactor ← optional Der.integerTag (element Der.integerTag)
    require (cofactor.getD [1] = [1])
    let coordinates := base.drop 1
    require (base.head? = some 4 && coordinates.length % 2 = 0)
    let x := Octets.number (coordinates.take (coordinates.length / 2))
    let y := Octets.number (coordinates.drop (coordinates.length / 2))
    ofOption (supported.find? fun c =>
      c.prime = prime && c.a = a && c.b = b && c.base = ⟨x, y⟩ && c.order = order)

/-- Reads a curve that is told by its name or its equation. -/
def reader : Reader Curve := do
  match ← optional Der.sequenceTag equationReader with
  | some c => return c
  | none =>
    let name ← element Der.nameTag
    ofOption (supported.find? (·.name = name))

/-- Reads a private key on a curve and gives its public half. -/
def secretReader (c : Curve) : Reader Point :=
  inside Der.sequenceTag do
    let version ← natural
    require (version = 1)
    let secret ← element Der.bytesTag
    let named ← optional (Der.partTag 0) (inside (Der.partTag 0) reader)
    require (named.getD c = c)
    let half ← optional (Der.partTag 1) (inside (Der.partTag 1) Reader.bits)
    let n := Octets.number secret
    require (0 < n && n < c.order)
    let p ← ofOption (c.publicPoint n)
    require (half.all fun bytes => c.ofBytes? bytes = some p)
    return p

end Curve

/-! ## Keys of any kind -/

namespace PrivateKey

/-- The public half of a key of a kind, given what follows the kind, the bytes of the key, and the
    bits of its public half if they come along. -/
def publicKeyOf? (kind parameters key : List UInt8) (half : Option (List UInt8)) :
    Option PublicKey :=
  if kind = modularKind then do
    let [] ← (element Der.nullTag).whole? parameters | none
    let k ← ModularKey.reader.whole? key
    if half.isSome then none else some k.publicKey
  else if kind = curveKind then do
    let c ← Curve.reader.whole? parameters
    let p ← c.secretReader.whole? key
    if half.isSome then none else some (.point c p)
  else if kind = edwardsKind then do
    let seed ← (element Der.bytesTag).whole? key
    let bytes := Edwards.publicKey seed
    if parameters.isEmpty && seed.length = Edwards.seedLength && half.all (· = 0 :: bytes) then
      some (.edwards bytes)
    else none
  else none

/-- Reads a key that comes with a word on its kind. -/
def reader : Reader PublicKey :=
  inside Der.sequenceTag do
    let version ← natural
    require (version ≤ 1)
    let (kind, parameters) ← inside Der.sequenceTag do
      let kind ← element Der.nameTag
      let parameters ← rest
      return (kind, parameters)
    let key ← element Der.bytesTag
    let _attributes ← optional (Der.partTag 0) (element (Der.partTag 0))
    let half ←
      if version = 1 then optional (Der.plainPartTag 1) (element (Der.plainPartTag 1)) else pure none
    let _ ← rest
    ofOption (publicKeyOf? kind parameters key half)

/-- The public half of a key on a curve of which nothing is told: the smallest that fits. -/
def curveKey? (bytes : List UInt8) : Option PublicKey :=
  Curve.supported.findSome? fun c => (c.secretReader.front? bytes).map (.point c)

/-- What follows the tag and the length of an element, however that is written. -/
def body : List UInt8 → List UInt8
  | _ :: n :: r => if n < 128 then r else r.drop (n.toNat - 128)
  | _ => []

/-- The public half of the private key in some bytes. A key that begins with a number and a sequence
    comes with a word on its kind; one that begins with a zero is modular, and one that begins with
    a one is on a curve. -/
def publicKey? (bytes : List UInt8) : Option PublicKey :=
  if bytes.head? ≠ some Der.sequenceTag then none
  else
    match body bytes with
    | 0x02 :: _ :: _ :: 0x30 :: _ => reader.front? bytes
    | 0x02 :: 0x01 :: 0x00 :: _ => (ModularKey.reader.front? bytes).map (·.publicKey)
    | 0x02 :: 0x01 :: 0x01 :: _ => curveKey? bytes
    | _ => none

end PrivateKey

end Gatehouse.Tls
