import Gatehouse.Tls.Curve
import Gatehouse.Tls.Der

/-!
# Public keys

The public half of a key is a modulus and an exponent, a point of a prime curve, or the bytes of a
point of the Edwards curve. A certificate tells its kind and then its bits.
-/

namespace Gatehouse.Tls

open Der (encode encodeBits encodeNatural)

/-- What names keys that are a modulus and an exponent. -/
def modularKind : List UInt8 := [0x2a, 0x86, 0x48, 0x86, 0xf7, 0x0d, 0x01, 0x01, 0x01]

/-- What names keys that are a point of a curve. -/
def curveKind : List UInt8 := [0x2a, 0x86, 0x48, 0xce, 0x3d, 0x02, 0x01]

/-- What names keys on the Edwards curve. -/
def edwardsKind : List UInt8 := [0x2b, 0x65, 0x70]

/-- The public half of a key. -/
inductive PublicKey
  | modular (modulus exponent : Nat)
  | point (curve : Curve) (p : Point)
  | edwards (bytes : List UInt8)
deriving DecidableEq

namespace PublicKey

/-- The kind of a key. -/
def kind : PublicKey → List UInt8
  | modular _ _ => encode Der.nameTag modularKind ++ encode Der.nullTag []
  | point c _ => encode Der.nameTag curveKind ++ encode Der.nameTag c.name
  | edwards _ => encode Der.nameTag edwardsKind

/-- The bits of a key. -/
def bits : PublicKey → List UInt8
  | modular n e => encode Der.sequenceTag (encodeNatural n ++ encodeNatural e)
  | point c p => c.toBytes p
  | edwards bytes => bytes

/-- What a certificate tells about a key. -/
def info (k : PublicKey) : List UInt8 := encode Der.sequenceTag k.kind ++ encodeBits k.bits

end PublicKey

end Gatehouse.Tls
