import Gatehouse.Tls.Modular
import Gatehouse.Tls.Octets
import Gatehouse.Tls.Sha512

/-!
# Edwards keys

The points of the curve `y² - x² = 1 + d x² y²` up to a prime are added by one formula that knows no
special case. A private key is a seed; its digest gives the number of times that the base point is
taken for the public half.

* `Edwards.publicKey`  the public half of a seed
-/

namespace Gatehouse.Tls.Edwards

open Gatehouse.Tls.Modular (mul sub div)

/-- The prime. -/
def prime : Nat := Nat.pow 2 255 - 19

/-- The constant of the equation. -/
def d : Nat := div prime (prime - 121665) 121666

/-- A point. -/
structure Point where
  x : Nat
  y : Nat
deriving DecidableEq

/-- The point that changes nothing when it is added. -/
def zero : Point := ⟨0, 1⟩

/-- The base point. -/
def base : Point :=
  ⟨0x216936d3cd6e53fec0a4e231fdd6dc5c692cc7609525a7b2c9562d608f25d51a, div prime 4 5⟩

/-- The sum of two points. -/
def add (p q : Point) : Point :=
  let crossed := Modular.add prime (mul prime p.x q.y) (mul prime q.x p.y)
  let straight := Modular.add prime (mul prime p.y q.y) (mul prime p.x q.x)
  let product := mul prime d (mul prime (mul prime p.x q.x) (mul prime p.y q.y))
  ⟨div prime crossed (Modular.add prime 1 product), div prime straight (sub prime 1 product)⟩

/-- A multiple of a point, by the bits of the factor. -/
def times (k : Nat) (p : Point) : Point :=
  if h : k = 0 then zero
  else
    let half := times (k / 2) (add p p)
    if k % 2 = 1 then add p half else half
termination_by k
decreasing_by exact Nat.div_lt_self (Nat.pos_of_ne_zero h) (by decide)

/-- The number that a seed stands for: half of its digest, the least byte first, as a multiple of
    eight with its highest bit in a fixed place. -/
def secret (seed : List UInt8) : Nat :=
  let n := Octets.number ((Sha512.digest seed).take 32).reverse
  n % Nat.pow 2 254 / 8 * 8 + Nat.pow 2 254

/-- The bytes that stand for a point: the second coordinate, the least byte first, and in its free
    bit whether the first one is odd. -/
def toBytes (p : Point) : List UInt8 :=
  (Octets.fixed 32 (p.y + p.x % 2 * Nat.pow 2 255)).reverse

/-- The bytes of a seed. -/
def seedLength : Nat := 32

/-- The public half of a seed. -/
def publicKey (seed : List UInt8) : List UInt8 := toBytes (times (secret seed) base)

end Gatehouse.Tls.Edwards
