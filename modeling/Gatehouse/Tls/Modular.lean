/-!
# Arithmetic up to a modulus

Numbers below a modulus, of which sums, differences, products and quotients are such numbers again.
A number has an inverse if it shares no factor with the modulus.

* `cofactor`  the greatest common divisor, and what one of the numbers is multiplied by to reach it
* `inverse`   the number whose product with another is one
-/

namespace Gatehouse.Tls.Modular

/-- A sum. -/
def add (m a b : Nat) : Nat := (a + b) % m

/-- A difference. -/
def sub (m a b : Nat) : Nat := (a + (m - b % m)) % m

/-- A product. -/
def mul (m a b : Nat) : Nat := a * b % m

/-- The greatest common divisor of two numbers that are, up to the modulus, `s` times and `t` times
    some third number, and how many times that number the divisor is. -/
def cofactor (m a b s t : Nat) : Nat × Nat :=
  if b = 0 then (a, s) else cofactor m b (a % b) t (sub m s (a / b * t))
termination_by b
decreasing_by exact Nat.mod_lt a (Nat.pos_of_ne_zero ‹_›)

/-- The number whose product with another is one, if that has no factor in common with the
    modulus. -/
def inverse (m a : Nat) : Nat := (cofactor m m (a % m) 0 1).2

/-- A quotient, where the divisor has an inverse. -/
def div (m a b : Nat) : Nat := mul m a (inverse m b)

/-- A power, by the bits of the exponent. -/
def power (m a e : Nat) : Nat :=
  if h : e = 0 then 1 % m
  else
    let half := power m (mul m a a) (e / 2)
    if e % 2 = 1 then mul m a half else half
termination_by e
decreasing_by exact Nat.div_lt_self (Nat.pos_of_ne_zero h) (by decide)

end Gatehouse.Tls.Modular
