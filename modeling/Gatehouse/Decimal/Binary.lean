/-!
# Binary64 numbers as scaled integers

A finite binary64 number is `± mantissa · 2 ^ exponent`. `Binary.ofFloat?` reads the three parts off
the bits, and `roundHalfEven` rounds a quotient of naturals to the nearest natural, a half to the
even neighbour.

* `roundHalfEven_bounds` twice the rounding is within one denominator of twice the quotient
-/

namespace Gatehouse.Decimal

/-- The parts of a finite binary64 number. -/
structure Binary where
  negative : Bool
  mantissa : Nat
  exponent : Int
deriving DecidableEq, Repr

/-- The parts of a number; nothing for an infinity and for what is not a number. -/
def Binary.ofFloat? (x : Float) : Option Binary :=
  let bits := x.toBits.toNat
  let fraction : Nat := bits % Nat.pow 2 52
  let field : Nat := bits / Nat.pow 2 52 % Nat.pow 2 11
  let negative := bits / Nat.pow 2 63 == 1
  if field = 2047 then none
  else if field = 0 then some ⟨negative, fraction, -1074⟩
  else some ⟨negative, Nat.pow 2 52 + fraction, Int.ofNat field - 1075⟩

/-- The numerator of `mantissa · 2 ^ exponent` over `Binary.den`. -/
def Binary.num (b : Binary) : Nat := b.mantissa * Nat.pow 2 b.exponent.toNat

/-- The power of two under `Binary.num`. -/
def Binary.den (b : Binary) : Nat := Nat.pow 2 (-b.exponent).toNat

/-- Whether a number is greater than zero; what is not a number is not. -/
def isPositive (x : Float) : Bool :=
  match Binary.ofFloat? x with
  | some b => !b.negative && b.mantissa != 0
  | none => x.toBits == 0x7FF0000000000000

/-- The natural nearest to `num / den`, the even one of two equally near. -/
def roundHalfEven (num den : Nat) : Nat :=
  let q := num / den
  let r := num % den
  if den < 2 * r || (2 * r == den && q % 2 == 1) then q + 1 else q

/-- A quotient is rounded by at most one half, told in whole numbers. -/
theorem roundHalfEven_bounds (num : Nat) {den : Nat} (h : 0 < den) :
    2 * (den * roundHalfEven num den) ≤ 2 * num + den ∧
      2 * num ≤ 2 * (den * roundHalfEven num den) + den := by
  have hdm := Nat.div_add_mod num den
  have hr := Nat.mod_lt num h
  have hs : den * (num / den + 1) = den * (num / den) + den := by rw [Nat.mul_add, Nat.mul_one]
  simp only [roundHalfEven]
  split
  · next hc =>
    simp only [Bool.or_eq_true, decide_eq_true_eq, Bool.and_eq_true, beq_iff_eq] at hc
    omega
  · next hc =>
    simp only [Bool.or_eq_true, decide_eq_true_eq, Bool.and_eq_true, beq_iff_eq, not_or] at hc
    omega

end Gatehouse.Decimal
