import Gatehouse.Admission.Arith

/-!
# Tokens counted exactly

The rational numbers as the numbers of the gate. A setting stands for the exact value of its float;
an infinite one, or one that is no number, for zero.
-/

namespace Gatehouse.Admission

/-- The exact value of a finite float, and zero for the others. -/
def exactValue (x : Float) : Rat :=
  match Decimal.Binary.ofFloat? x with
  | none => 0
  | some b => (if b.negative then -1 else 1) * (b.num : Rat) / (b.den : Rat)

/-- The span of time nearest to so many seconds. -/
def exactSpan? (q : Rat) : Option Nat :=
  if q < 0 || Nat.pow 2 64 * q.den ≤ q.num.toNat then none
  else some (Decimal.roundHalfEven (q.num.toNat * nanosPerSecond) q.den)

instance : TokenArith Rat where
  ofNat n := (n : Rat)
  ofFloat := exactValue
  atMost x y := x ≤ y
  lesser x y := if x ≤ y then x else y
  seconds n := (n : Rat) / (nanosPerSecond : Rat)
  span? := exactSpan?
  ceil q := q.ceil.toNat

end Gatehouse.Admission
