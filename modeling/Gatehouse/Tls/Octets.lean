/-!
# Numbers in bytes

Binary contents hold numbers with their greatest byte first, either in as many bytes as the number
needs or in a width that is known.

* `number`  the number that bytes stand for
* `fixed`   a number in so many bytes
* `least`   a number in as few bytes as it needs
-/

namespace Gatehouse.Tls.Octets

/-- The number that bytes stand for, the greatest byte first. -/
def number (bytes : List UInt8) : Nat := bytes.foldl (fun n b => 256 * n + b.toNat) 0

/-- A number in so many bytes; what does not fit is left away. -/
def fixed : Nat → Nat → List UInt8
  | 0, _ => []
  | width + 1, n => fixed width (n / 256) ++ [(n % 256).toUInt8]

/-- How many bits a number needs. -/
def bitLength (n : Nat) : Nat := if n = 0 then 0 else Nat.log2 n + 1

/-- A number in as few bytes as it needs, but in one at least. -/
def least (n : Nat) : List UInt8 := fixed (max 1 ((bitLength n + 7) / 8)) n

end Gatehouse.Tls.Octets
