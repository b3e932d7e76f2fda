import Gatehouse.Tls.Modular
import Gatehouse.Tls.Octets

/-!
# Prime curves

The points of a curve are the solutions of `y² = x³ - 3x + b` up to a prime, and one more point at
infinity, and they are added by chords and tangents. A private key is a number, and its public half
is that many times the base point.

* `Curve.add`         the sum of two points
* `Curve.times`       a multiple of a point
* `Curve.ofBytes?`    the point that bytes stand for
* `Curve.supported`   the curves of keys
-/

namespace Gatehouse.Tls

/-- A curve with a base point. -/
structure Curve where
  /-- The contents of the name of the curve. -/
  name : List UInt8
  /-- The bytes of a coordinate. -/
  width : Nat
  prime : Nat
  /-- The constant of the equation. -/
  b : Nat
  baseX : Nat
  baseY : Nat
  /-- The number of points. -/
  order : Nat
deriving DecidableEq

/-- A point that is not at infinity. -/
structure Point where
  x : Nat
  y : Nat
deriving DecidableEq

namespace Curve

open Gatehouse.Tls.Modular (mul sub div power)

/-- The factor of `x` in the equation. -/
def a (c : Curve) : Nat := c.prime - 3

/-- The base point. -/
def base (c : Curve) : Point := ⟨c.baseX, c.baseY⟩

/-- The right side of the equation. -/
def square (c : Curve) (x : Nat) : Nat :=
  Modular.add c.prime (mul c.prime x (Modular.add c.prime (mul c.prime x x) c.a)) c.b

/-- Whether a point is on the curve. -/
def holds (c : Curve) (p : Point) : Bool :=
  p.x < c.prime && p.y < c.prime && mul c.prime p.y p.y = c.square p.x

/-! ## Sums -/

/-- Where a line of a slope through two points meets the curve again, mirrored at the first axis. -/
def meet (c : Curve) (slope : Nat) (p q : Point) : Point :=
  let m := c.prime
  let x := sub m (sub m (mul m slope slope) p.x) q.x
  ⟨x, sub m (mul m slope (sub m p.x x)) p.y⟩

/-- The sum of two points. -/
def add (c : Curve) : Option Point → Option Point → Option Point
  | none, q => q
  | p, none => p
  | some p, some q =>
    let m := c.prime
    if p.x = q.x then
      if p.y = q.y && p.y ≠ 0 then
        some (c.meet (div m (3 * p.x * p.x + c.a) (2 * p.y)) p q)
      else none
    else some (c.meet (div m (sub m q.y p.y) (sub m q.x p.x)) p q)

/-- A multiple of a point, by the bits of the factor. -/
def times (c : Curve) (k : Nat) (p : Option Point) : Option Point :=
  if h : k = 0 then none
  else
    let half := c.times (k / 2) (c.add p p)
    if k % 2 = 1 then c.add p half else half
termination_by k
decreasing_by exact Nat.div_lt_self (Nat.pos_of_ne_zero h) (by decide)

/-- The public half of a private key. -/
def publicPoint (c : Curve) (secret : Nat) : Option Point := c.times secret (some c.base)

/-! ## Points in bytes -/

/-- A number whose square is another one, if there is one; the prime leaves three when divided by
    four. -/
def root (c : Curve) (n : Nat) : Nat := power c.prime n ((c.prime + 1) / 4)

/-- The point of a first coordinate whose second coordinate is odd or even. -/
def lift (c : Curve) (x parity : Nat) : Point :=
  let y := c.root (c.square x)
  ⟨x, if y % 2 = parity then y else c.prime - y⟩

/-- The point that bytes stand for. The first byte tells whether the second coordinate follows, and
    whether it is odd. -/
def ofBytes? (c : Curve) : List UInt8 → Option Point
  | [] => none
  | form :: coordinates =>
    let parity := form.toNat % 2
    let point? : Option Point :=
      if form = 4 || form = 6 || form = 7 then
        if coordinates.length = 2 * c.width then
          some ⟨Octets.number (coordinates.take c.width), Octets.number (coordinates.drop c.width)⟩
        else none
      else if form = 2 || form = 3 then
        if coordinates.length = c.width then some (c.lift (Octets.number coordinates) parity) else none
      else none
    point?.filter fun p => c.holds p && (form = 4 || p.y % 2 = parity)

/-- The bytes that stand for a point, with both coordinates. -/
def toBytes (c : Curve) (p : Point) : List UInt8 :=
  4 :: Octets.fixed c.width p.x ++ Octets.fixed c.width p.y

/-! ## The curves of keys -/

/-- The curve of 256 bits. -/
def small : Curve where
  name := [0x2a, 0x86, 0x48, 0xce, 0x3d, 0x03, 0x01, 0x07]
  width := 32
  prime := 0xffffffff00000001000000000000000000000000ffffffffffffffffffffffff
  b := 0x5ac635d8aa3a93e7b3ebbd55769886bc651d06b0cc53b0f63bce3c3e27d2604b
  baseX := 0x6b17d1f2e12c4247f8bce6e563a440f277037d812deb33a0f4a13945d898c296
  baseY := 0x4fe342e2fe1a7f9b8ee7eb4a7c0f9e162bce33576b315ececbb6406837bf51f5
  order := 0xffffffff00000000ffffffffffffffffbce6faada7179e84f3b9cac2fc632551

/-- The curve of 384 bits. -/
def middle : Curve where
  name := [0x2b, 0x81, 0x04, 0x00, 0x22]
  width := 48
  prime := Nat.pow 2 384 - Nat.pow 2 128 - Nat.pow 2 96 + Nat.pow 2 32 - 1
  b := 0xb3312fa7e23ee7e4988e056be3f82d19181d9c6efe8141120314088f5013875ac656398d8a2ed19d2a85c8edd3ec2aef
  baseX :=
    0xaa87ca22be8b05378eb1c71ef320ad746e1d3b628ba79b9859f741e082542a385502f25dbf55296c3a545e3872760ab7
  baseY :=
    0x3617de4a96262c6f5d9e98bf9292dc29f8f41dbd289a147ce9da3113b5f0b8c00a60b1ce1d7e819d7a431d7c90ea0e5f
  order :=
    0xffffffffffffffffffffffffffffffffffffffffffffffffc7634d81f4372ddf581a0db248b0a77aecec196accc52973

/-- The curve of 521 bits. -/
def large : Curve where
  name := [0x2b, 0x81, 0x04, 0x00, 0x23]
  width := 66
  prime := Nat.pow 2 521 - 1
  b := 0x51953eb9618e1c9a1f929a21a0b68540eea2da725b99b315f3b8b489918ef109e156193951ec7e937b1652c0bd3bb1bf07_3573df883d2c34f1ef451fd46b503f00
  baseX :=
    0xc6858e06b70404e9cd9e3ecb662395b4429c648139053fb521f828af606b4d3dbaa14b5e77efe75928fe1dc127a2ffa8_de3348b3c1856a429bf97e7e31c2e5bd66
  baseY :=
    0x11839296a789a3bc0045c8a5fb42c7d1bd998f54449579b446817afbd17273e662c97ee72995ef42640c550b9013fad0_761353c7086a272c24088be94769fd16650
  order := Nat.pow 2 521 - 1
    - 0x5ae79787c40d069948033feb708f65a2fc44a36477663b851449048e16ec79bf6

/-- The curves of keys, the smallest first. -/
def supported : List Curve := [small, middle, large]

end Curve

end Gatehouse.Tls
