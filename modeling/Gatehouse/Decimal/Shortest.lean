import Gatehouse.Decimal.Binary

/-!
# Shortest decimal digits

The shortest decimal of a binary64 number is the one with the fewest digits among those that lie
between the two midpoints to the neighbouring numbers; of two with equally few digits it is the
nearer one. A midpoint counts when the mantissa is even, because reading rounds a half to the even
mantissa.

For each digit count the two grid points around the exact value are tried, in exact arithmetic on
naturals. If a point of the grid lies in the interval then so does one of these two, so the first
count that succeeds is the least.
-/

namespace Gatehouse.Decimal

/-- The positive decimal `digits · 10 ^ exponent`. -/
structure Digits where
  digits : Nat
  exponent : Int
deriving DecidableEq, Repr

/-- How many decimal digits a natural is written with. -/
def digitCount (n : Nat) : Nat := (Nat.toDigits 10 n).length

/-- The exponent of the leading digit of `num / den`, for a positive quotient. -/
def leadingExponent (num den : Nat) : Int :=
  if den ≤ num then (digitCount (num / den) : Int) - 1
  else
    let t := digitCount (den / num)
    if num * Nat.pow 10 (t - 1) = den then 1 - (t : Int) else -(t : Int)

/-- The sign of `c · 10 ^ k - x · 2 ^ q`. -/
def compareScaled (c : Nat) (k : Int) (x : Nat) (q : Int) : Ordering :=
  compare (c * Nat.pow 10 k.toNat * Nat.pow 2 (-q).toNat)
    (x * Nat.pow 2 q.toNat * Nat.pow 10 (-k).toNat)

/-- Whether `c · 10 ^ k` reads back as the number `m · 2 ^ q`. -/
def readsBack (m : Nat) (q : Int) (c : Nat) (k : Int) : Bool :=
  let below := if m = Nat.pow 2 52 && q > -1074 then 1 else 2
  let low := compareScaled c k (4 * m - below) (q - 2)
  let high := compareScaled c k (4 * m + 2) (q - 2)
  if m % 2 = 0 then low != .lt && high != .gt else low == .gt && high == .lt

/-- The best decimal with `n + 1` digits that reads back as `num / den = m · 2 ^ q`, if there is
    one. -/
def withDigits (m : Nat) (q : Int) (num den : Nat) (n : Nat) : Option Digits :=
  let k := leadingExponent num den - n
  let num' := num * Nat.pow 10 (-k).toNat
  let den' := den * Nat.pow 10 k.toNat
  let c := num' / den'
  match readsBack m q c k, readsBack m q (c + 1) k with
  | true, true => some ⟨roundHalfEven num' den', k⟩
  | true, false => some ⟨c, k⟩
  | false, true => some ⟨c + 1, k⟩
  | false, false => none

/-- Moves trailing zeros of the digits into the exponent. -/
def Digits.strip (d : Digits) : Digits :=
  if h : 0 < d.digits ∧ d.digits % 10 = 0 then strip ⟨d.digits / 10, d.exponent + 1⟩ else d
termination_by d.digits
decreasing_by omega

/-- The shortest decimal of the number with these parts; nothing for zero. -/
def shortest? (b : Binary) : Option Digits :=
  if b.mantissa = 0 then none
  else
    ((List.range 17).findSome? (withDigits b.mantissa b.exponent b.num b.den)).map Digits.strip

end Gatehouse.Decimal
