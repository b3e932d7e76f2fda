import Gatehouse.Decimal.Binary

/-!
# The arithmetic of tokens

Tokens, rates and seconds are numbers of one type. The gate runs on binary64 numbers; the laws of
the gate are about exact arithmetic, so the gate is written for any type with the operations of
`TokenArith`. Times are whole nanoseconds behind a common origin, and so are spans of time.
-/

namespace Gatehouse.Admission

/-- How many nanoseconds a second has. -/
def nanosPerSecond : Nat := 1000000000

/-- The numbers that tokens, rates and seconds are counted in. -/
class TokenArith (α : Type) extends Add α, Sub α, Mul α, Div α where
  ofNat : Nat → α
  /-- The number that a setting gives. -/
  ofFloat : Float → α
  /-- Whether the first number is less than or equal to the second. -/
  atMost : α → α → Bool
  /-- The lesser of two numbers. -/
  lesser : α → α → α
  /-- A span of time in seconds. -/
  seconds : Nat → α
  /-- The span of time nearest to so many seconds, a half nanosecond going to the even neighbour;
      nothing for negative seconds and from `2^64` seconds on. -/
  span? : α → Option Nat
  /-- The least natural that is not below a number. -/
  ceil : α → Nat

/-- The span of time nearest to so many seconds. -/
def floatSpan? (x : Float) : Option Nat :=
  match Decimal.Binary.ofFloat? x with
  | none => none
  | some b =>
    if b.negative && b.mantissa != 0 then none
    else if Nat.pow 2 64 * b.den ≤ b.num then none
    else some (Decimal.roundHalfEven (b.num * nanosPerSecond) b.den)

/-- The lesser of two floats; what is not a number is passed over for the other one. -/
def floatLesser (x y : Float) : Float :=
  if x.isNaN then y else if y.isNaN then x else if x ≤ y then x else y

instance : TokenArith Float where
  ofNat := Float.ofNat
  ofFloat x := x
  atMost x y := x ≤ y
  lesser := floatLesser
  seconds n := Float.ofNat (n / nanosPerSecond) + Float.ofNat (n % nanosPerSecond) / 1e9
  span? := floatSpan?
  ceil x := x.ceil.toUInt64.toNat

end Gatehouse.Admission
